/- module: DesecStack/Accounts/TokenRows
   source: api/desecapi/models/tokens.py, api/desecapi/views/tokens.py,
     api/desecapi/views/users.py, api/desecapi/views/mfa.py, api/desecapi/authentication.py
   digest: What each account operation makes of the token rows. -/

import DesecStack.Accounts.Operations
import DesecStack.Accounts.Signed

set_option autoImplicit false
set_option relaxedAutoImplicit false

namespace DesecStack.Accounts.TokenRows

open Library.PyText (Text)
open Domains.Scavenge (RenewalState)
open Actions Operations
open Signed (findToken_id)

section Relations

variable {Hash : Type} (env : Environment Hash)

/-- A token row that is inserted between two states. -/
structure Inserted (s t : Store Hash) (token : Token) : Prop where
  fresh : s.nextId ≤ token.id
  given : token.id < t.nextId
  created : ∃ call, s.calls ≤ call ∧ call < t.calls ∧ token.created = env.clock call
  unused : token.lastUsed = none
  unraised : token.mfa ≠ some true

/-- Token rows stay as they are, unless they go, and new ones come after them. -/
structure Keeps (s t : Store Hash) : Prop where
  nextId : s.nextId ≤ t.nextId
  calls : s.calls ≤ t.calls
  tokens : ∃ news, List.Sublist t.tokens (s.tokens ++ news) ∧
    (∀ token ∈ news, Inserted env s t token) ∧ news.Pairwise fun token later => token.id < later.id

/-- The ids of the token rows have been given out in this order. -/
structure Ordered (s : Store Hash) : Prop where
  ids : s.tokens.Pairwise fun token later => token.id < later.id
  given : ∀ token ∈ s.tokens, token.id < s.nextId

variable {env} {s t u : Store Hash}

private theorem Inserted.widen {before after : Store Hash} {token : Token}
    (inserted : Inserted env s t token) (nextId : before.nextId ≤ s.nextId)
    (calls : before.calls ≤ s.calls) (laterId : t.nextId ≤ after.nextId)
    (laterCalls : t.calls ≤ after.calls) : Inserted env before after token where
  fresh := nextId.trans inserted.fresh
  given := inserted.given.trans_le laterId
  created := by
    obtain ⟨call, first, last, created⟩ := inserted.created
    exact ⟨call, calls.trans first, last.trans_le laterCalls, created⟩
  unused := inserted.unused
  unraised := inserted.unraised

private theorem Keeps.trans (first : Keeps env s t) (second : Keeps env t u) : Keeps env s u where
  nextId := first.nextId.trans second.nextId
  calls := first.calls.trans second.calls
  tokens := by
    obtain ⟨news, sublist, inserted, ordered⟩ := first.tokens
    obtain ⟨later, sublistLater, insertedLater, orderedLater⟩ := second.tokens
    refine ⟨news ++ later, ?_, ?_, ?_⟩
    · rw [← List.append_assoc]
      exact sublistLater.trans (sublist.append_right later)
    · intro token member
      rcases List.mem_append.mp member with new | new
      · exact (inserted token new).widen le_rfl le_rfl second.nextId second.calls
      · exact (insertedLater token new).widen first.nextId first.calls le_rfl le_rfl
    · refine List.pairwise_append.mpr ⟨ordered, orderedLater, fun token new other newer => ?_⟩
      exact (inserted token new).given.trans_le (insertedLater other newer).fresh

private theorem keeps_of_sublist (nextId : s.nextId ≤ t.nextId) (calls : s.calls ≤ t.calls)
    (sublist : List.Sublist t.tokens s.tokens) : Keeps env s t where
  nextId := nextId
  calls := calls
  tokens := ⟨[], by rwa [List.append_nil], fun _ never => absurd never List.not_mem_nil,
    List.Pairwise.nil⟩

theorem keeps_of_eq (nextId : s.nextId ≤ t.nextId) (calls : s.calls ≤ t.calls)
    (same : t.tokens = s.tokens) : Keeps env s t :=
  keeps_of_sublist nextId calls (same ▸ List.Sublist.refl _)

theorem Keeps.refl (s : Store Hash) : Keeps env s s := keeps_of_eq le_rfl le_rfl rfl

private theorem keeps_getD {result : Option (Store Hash)}
    (done : ∀ t, result = some t → Keeps env s t) :
    Keeps env s (result.getD s) := by
  cases result with
  | none => exact Keeps.refl s
  | some t => exact done t rfl

private theorem keeps_ite {condition : Prop} [Decidable condition] (keeps : Keeps env s t) :
    Keeps env s (if condition then t else s) := by
  split
  · exact keeps
  · exact Keeps.refl s

private theorem keeps_foldl {α : Type} {f : Store Hash → α → Store Hash}
    (each : ∀ s item, Keeps env s (f s item)) (items : List α) (s : Store Hash) :
    Keeps env s (items.foldl f s) := by
  induction items generalizing s with
  | nil => exact Keeps.refl s
  | cons item items ih => exact (each s item).trans (ih _)

private theorem Keeps.ordered (keeps : Keeps env s t) (ordered : Ordered s) : Ordered t := by
  obtain ⟨news, sublist, inserted, increasing⟩ := keeps.tokens
  refine ⟨List.Pairwise.sublist sublist ?_, fun token member => ?_⟩
  · refine List.pairwise_append.mpr ⟨ordered.ids, increasing, fun token old other new => ?_⟩
    exact (ordered.given token old).trans_le (inserted other new).fresh
  · rcases List.mem_append.mp (sublist.subset member) with old | new
    · exact (ordered.given token old).trans_le keeps.nextId
    · exact (inserted token new).given

theorem Ordered.unique (ordered : Ordered s) {token other : Token} (member : token ∈ s.tokens)
    (there : other ∈ s.tokens) (same : token.id = other.id) : token = other := by
  have distinct : (s.tokens.map fun token => token.id).Nodup :=
    List.pairwise_map.mpr (ordered.ids.imp fun less => Nat.ne_of_lt less)
  exact List.inj_on_of_nodup_map distinct member there same

end Relations

section Saves

variable {Hash : Type} {env : Environment Hash} {s t : Store Hash}

private theorem keeps_issue (action : Action) (s : Store Hash) :
    Keeps env s (issue env action s) := by
  rw [issue]
  split
  · exact keeps_of_eq le_rfl le_rfl rfl
  · exact Keeps.refl s

private theorem keeps_mail (action : Action) (s : Store Hash) :
    Keeps env s (mail env action s) := by
  rw [mail]
  split
  · exact keeps_of_eq le_rfl le_rfl rfl
  · exact Keeps.refl s

private theorem keeps_insertToken {owner : Nat} {name : Text} {mfa : Option Bool}
    {permCreateDomain permDeleteDomain permManageTokens autoPolicy : Bool}
    {maxAge maxUnusedPeriod : Option Nat} (unraised : mfa ≠ some true) (s : Store Hash) :
    Keeps env s (insertToken env owner name mfa permCreateDomain permDeleteDomain permManageTokens
      autoPolicy maxAge maxUnusedPeriod s) where
  nextId := Nat.le_succ _
  calls := Nat.le_succ _
  tokens := by
    refine ⟨_, List.Sublist.refl _, fun token new => ?_, List.pairwise_singleton _ _⟩
    rw [List.mem_singleton.mp new]
    exact ⟨le_rfl, Nat.lt_succ_self _, ⟨s.calls, le_rfl, Nat.lt_succ_self _, rfl⟩, rfl, unraised⟩

private theorem keeps_removeUsers (gone : Nat → Bool) (s : Store Hash) :
    Keeps env s (removeUsers gone s) :=
  keeps_of_sublist le_rfl le_rfl List.filter_sublist

private theorem keeps_deleteUser (target : Nat) (s : Store Hash) :
    Keeps env s ((deleteUser target s).getD s) := by
  refine keeps_getD fun t deleted => ?_
  rw [deleteUser] at deleted
  split at deleted
  · cases deleted
  · cases deleted
    exact keeps_removeUsers _ s

private theorem frame_saveFactor {factor : Factor} (saved : saveFactor env factor s = some t) :
    t.nextId = s.nextId ∧ s.calls ≤ t.calls ∧ t.tokens = s.tokens := by
  rw [saveFactor] at saved
  split at saved
  · cases saved
  · cases saved
    split
    · exact ⟨rfl, le_rfl, rfl⟩
    · exact ⟨rfl, Nat.le_succ _, rfl⟩

private theorem keeps_saveFactor {factor : Factor} (saved : saveFactor env factor s = some t) :
    Keeps env s t := by
  obtain ⟨nextId, calls, tokens⟩ := frame_saveFactor saved
  exact keeps_of_eq nextId.ge calls tokens

private theorem keeps_createFactor {user : Nat} {name : Text}
    (created : createFactor env user name s = some t) : Keeps env s t := by
  have given : Keeps env s { s with nextId := s.nextId + 1 } :=
    keeps_of_eq (Nat.le_succ _) le_rfl rfl
  exact given.trans (keeps_saveFactor created)

private theorem tokens_verify {factor : Factor} {code : Text}
    (verified : verify env factor code s = some t) : t.tokens = s.tokens := by
  obtain ⟨timestep, -, saved⟩ := Option.bind_eq_some_iff.mp verified
  exact (frame_saveFactor saved).2.2

private theorem keeps_verify {factor : Factor} {code : Text}
    (verified : verify env factor code s = some t) : Keeps env s t := by
  obtain ⟨timestep, -, saved⟩ := Option.bind_eq_some_iff.mp verified
  have ticked : Keeps env s s.tick := keeps_of_eq le_rfl (Nat.le_succ _) rfl
  exact ticked.trans (keeps_saveFactor saved)

end Saves

section Changes

variable {Hash : Type} (env : Environment Hash)

/-- What an operation can make of a token row. -/
inductive Changes (s : Store Hash) (operation : Operation Hash) (old : Token) : Token → Prop where
  | kept : Changes s operation old old
  | used (now : operation = .useToken old.id) :
    Changes s operation old { old with lastUsed := some (s.now env) }
  | steppedUp (factor : Nat) (code : Text) (policiesAdmit : Bool) (row : Factor)
      (now : operation = .verifyFactor factor code (some old.id) policiesAdmit)
      (found : s.findFactor factor = some row) (inUse : row.totp.lastUsed.isSome = true)
      (verified : (verify env row code s).isSome = true) :
    Changes s operation old { old with mfa := some true }
  | updated (name : Text) (permCreateDomain permDeleteDomain permManageTokens autoPolicy : Bool)
      (maxAge maxUnusedPeriod : Option Nat) (policiesAdmit : Bool)
      (now : operation = .updateToken old.id name permCreateDomain permDeleteDomain
        permManageTokens autoPolicy maxAge maxUnusedPeriod policiesAdmit) :
    Changes s operation old { old with
      name, permCreateDomain, permDeleteDomain, permManageTokens, autoPolicy, maxAge
      maxUnusedPeriod }
  | overridden (code : Code Hash) (r : Redemption) (user : Nat)
      (now : operation = .redeem code r)
      (kind : code.action = .activateWithOverrideToken user old.id)
      (unset : old.userOverride = none ∨ old.userOverride = some user) :
    Changes s operation old { old with userOverride := some user }

/-- Token rows change, go and come. -/
structure Alters (s : Store Hash) (operation : Operation Hash) (t : Store Hash) : Prop where
  nextId : s.nextId ≤ t.nextId
  calls : s.calls ≤ t.calls
  ordered : Ordered s → Ordered t
  tokens : ∀ token ∈ t.tokens,
    (∃ old ∈ s.tokens, Changes env s operation old token) ∨ Inserted env s t token

variable {env} {s t u : Store Hash} {operation : Operation Hash}

theorem Changes.id {old token : Token} (changes : Changes env s operation old token) :
    token.id = old.id := by
  cases changes <;> rfl

theorem alters_of_keeps (keeps : Keeps env s t) : Alters env s operation t where
  nextId := keeps.nextId
  calls := keeps.calls
  ordered := keeps.ordered
  tokens := by
    intro token member
    obtain ⟨news, sublist, inserted, -⟩ := keeps.tokens
    rcases List.mem_append.mp (sublist.subset member) with old | new
    · exact Or.inl ⟨token, old, .kept⟩
    · exact Or.inr (inserted token new)

private theorem Alters.of_eq (alters : Alters env s operation t) (nextId : u.nextId = t.nextId)
    (calls : u.calls = t.calls) (tokens : u.tokens = t.tokens) : Alters env s operation u where
  nextId := nextId ▸ alters.nextId
  calls := calls ▸ alters.calls
  ordered := by
    intro ordered
    obtain ⟨ids, given⟩ := alters.ordered ordered
    exact ⟨by rwa [tokens], by rwa [tokens, nextId]⟩
  tokens := by
    intro token member
    rcases alters.tokens token (tokens ▸ member) with old | new
    · exact Or.inl old
    · exact Or.inr (new.widen le_rfl le_rfl nextId.ge calls.ge)

private theorem alters_of_map {change : Token → Token} (nextId : s.nextId ≤ t.nextId)
    (calls : s.calls ≤ t.calls) (mapped : t.tokens = s.tokens.map change)
    (ids : ∀ token, (change token).id = token.id)
    (changes : ∀ token ∈ s.tokens, ∃ old ∈ s.tokens, Changes env s operation old (change token)) :
    Alters env s operation t where
  nextId := nextId
  calls := calls
  ordered := by
    intro ordered
    refine ⟨?_, fun token member => ?_⟩
    · rw [mapped, List.pairwise_map]
      exact ordered.ids.imp fun less => by rwa [ids, ids]
    · rw [mapped] at member
      obtain ⟨old, there, rfl⟩ := List.mem_map.mp member
      rw [ids]
      exact (ordered.given old there).trans_le nextId
  tokens := by
    intro token member
    rw [mapped] at member
    obtain ⟨old, there, rfl⟩ := List.mem_map.mp member
    exact Or.inl (changes old there)

private theorem alters_saveToken {mid : Store Hash} {policiesAdmit : Bool} {row token : Token}
    (saved : saveToken policiesAdmit token mid = some t) (keeps : mid.tokens = s.tokens)
    (nextId : s.nextId ≤ mid.nextId) (calls : s.calls ≤ mid.calls) (found : row ∈ s.tokens)
    (same : token.id = row.id)
    (changes : (row.userOverride = none ∨ row.userOverride = token.userOverride) →
      Changes env s operation row token) : Alters env s operation t := by
  rw [saveToken] at saved
  split at saved
  · next admitted =>
    cases saved
    simp only [Bool.and_eq_true, List.all_eq_true, Bool.or_eq_true, decide_eq_true_eq,
      Option.isNone_iff_eq_none, keeps] at admitted
    refine alters_of_map nextId calls (congrArg _ keeps) (fun old => ?_) fun old there => ?_
    · split
      · next concerned => exact concerned.symm
      · rfl
    · split
      · refine ⟨row, found, changes ?_⟩
        rcases admitted.2 row found with (other | unset) | set
        · exact absurd same.symm other
        · exact Or.inl unset
        · exact Or.inr set
      · exact ⟨old, there, .kept⟩
  · cases saved

end Changes

section Redemptions

variable {Hash : Type} {env : Environment Hash}

private theorem mem_of_findToken {s : Store Hash} {id : Nat} {token : Token}
    (found : s.findToken id = some token) : token ∈ s.tokens := List.mem_of_find?_eq_some found

private theorem keeps_act {action : Action} (r : Redemption) (s : Store Hash)
    (other : ∀ user token, action ≠ .activateWithOverrideToken user token) :
    Keeps env s (act env action r s).1 := by
  have atomic {result : Option (Store Hash)} (done : ∀ t, result = some t → Keeps env s t) :
      Keeps env s (atomically s result).1 := by
    cases result with
    | none => exact Keeps.refl s
    | some t => exact done t rfl
  cases action with
  | activateWithOverrideToken user token => exact absurd rfl (other user token)
  | changeEmail user newEmail =>
    refine atomic fun t done => ?_
    rw [changeEmail] at done
    split at done
    · cases done
    · cases done
      exact keeps_of_eq le_rfl (Nat.le_succ _) rfl
  | createTotp user name => exact atomic fun t done => keeps_createFactor done
  | deleteAccount user =>
    refine atomic fun t done => ?_
    have deleted : Keeps env s ((deleteUser user s).getD s) := keeps_deleteUser user s
    rwa [done] at deleted
  | resetPassword user => exact keeps_of_eq le_rfl (Nat.le_succ _) rfl
  | renewDomain user domain => exact keeps_of_eq le_rfl (Nat.le_succ _) rfl
  | _ => exact keeps_of_eq le_rfl le_rfl rfl

private theorem keeps_finalize (user : Nat) (domain : Option Text) (r : Redemption)
    (s : Store Hash) :
    Keeps env s (finalize env user domain r s) := by
  cases domain with
  | none =>
    rw [finalize]
    exact keeps_ite (keeps_issue _ s)
  | some name =>
    rw [finalize]
    split
    · exact keeps_deleteUser user s
    · exact Keeps.refl s
    · have created (isLocallyRegistrable : Bool) :
          Keeps env s (createDomain env name user isLocallyRegistrable s) :=
        keeps_of_eq (Nat.le_succ _) (Nat.le_succ _) rfl
      dsimp only
      split
      · exact (created _).trans (keeps_insertToken (by simp) _)
      · exact created _

private theorem keeps_perform {code : Code Hash} (r : Redemption) (s : Store Hash)
    (other : ∀ user token, code.action ≠ .activateWithOverrideToken user token) :
    Keeps env s (perform env code r s) := by
  have acted : Keeps env s (act env code.action r s).1 := keeps_act r s other
  rw [perform]
  split
  · next t raised =>
    rw [raised] at acted
    exact acted
  · next t done =>
    rw [done] at acted
    have noted : Keeps env s { t with redeemed := t.redeemed ++ [code] } :=
      acted.trans (keeps_of_eq le_rfl le_rfl rfl)
    dsimp only
    split
    · exact noted.trans (keeps_finalize _ _ r _)
    · exact noted

private theorem alters_perform (code : Code Hash) (r : Redemption) (s : Store Hash) :
    Alters env s (.redeem code r) (perform env code r s) := by
  cases kind : code.action with
  | activateWithOverrideToken user id =>
    rw [perform, kind]
    dsimp only [act]
    set activated := activate user
      (saveUser user (fun row => { row with outreachPreference := r.outreachPreference }) s)
    cases overriding : (activated.findToken id).bind fun row =>
        saveToken r.policiesAdmit { row with userOverride := some user } activated with
    | none => exact alters_of_keeps (keeps_of_eq le_rfl le_rfl rfl)
    | some t =>
      obtain ⟨row, found, saved⟩ := Option.bind_eq_some_iff.mp overriding
      have own : row.id = id := findToken_id found
      have altered : Alters env s (.redeem code r) t :=
        alters_saveToken saved rfl le_rfl le_rfl (mem_of_findToken found) rfl
          fun unset => .overridden code r user rfl (own ▸ kind) unset
      exact altered.of_eq rfl rfl rfl
  | _ => exact alters_of_keeps (keeps_perform r s (by simp [kind]))

private theorem alters_redeem [DecidableEq Hash] (code : Code Hash) (r : Redemption)
    (s : Store Hash) :
    Alters env s (.redeem code r) (redeem env code r s) := by
  rw [redeem]
  split
  · exact alters_of_keeps (Keeps.refl s)
  · split
    · exact alters_perform code r s
    · exact alters_of_keeps (Keeps.refl s)

end Redemptions

section Steps

variable {Hash : Type} {env : Environment Hash}

private theorem keeps_warnDomainDeletion (renewalState : RenewalState) (inactiveDays : Nat)
    (s : Store Hash) : Keeps env s (warnDomainDeletion env renewalState inactiveDays s) := by
  have ticked (s : Store Hash) : Keeps env s s.tick := keeps_of_eq le_rfl (Nat.le_succ _) rfl
  refine (ticked s).trans (keeps_foldl (fun t domain => ?_) _ _)
  have stamped (change : Nat → Domains.Scavenge.Domain → Domains.Scavenge.Domain) :
      Keeps env t (stampDomain env domain.id change t) := keeps_of_eq le_rfl (Nat.le_succ _) rfl
  exact (stamped _).trans (keeps_issue _ _)

private theorem keeps_deleteDomains (inactiveDays : Nat) (s : Store Hash) :
    Keeps env s (deleteDomains env inactiveDays s) := by
  have ticked : Keeps env s s.tick := keeps_of_eq le_rfl (Nat.le_succ _) rfl
  refine ticked.trans (keeps_foldl (fun t domain => ?_) _ _)
  have cleared : Keeps env t (deleteDomain domain.id t) := keeps_of_eq le_rfl le_rfl rfl
  exact cleared.trans (keeps_deleteUser domain.owner _)

private theorem keeps_login (user : Nat) (s : Store Hash) : Keeps env s (login env user s) := by
  let cleaned : Store Hash := { s.tick with
    tokens := s.tokens.filter fun token =>
      !(token.owner = user && token.userOverride.isNone && token.mfa.isSome &&
        !isValidToken (s.now env) token) }
  have fewer : Keeps env s cleaned :=
    keeps_of_sublist le_rfl (Nat.le_succ _) List.filter_sublist
  have logged : Keeps env s (insertToken env user [] (some false) true true true false
      (some (7 * 86400000000)) (some 3600000000) cleaned) :=
    fewer.trans (keeps_insertToken (by simp) cleaned)
  exact logged.trans (keeps_of_eq le_rfl (Nat.le_succ _) rfl)

private theorem keeps_createUser {email : Text} {password : Option Text}
    {needsCaptcha outreachPreference : Bool} (s : Store Hash) :
    Keeps env s (createUser env email password needsCaptcha outreachPreference s) :=
  keeps_of_eq (Nat.le_succ _) (Nat.le_add_right _ 2) rfl

private theorem keeps_createToken {owner : Nat} {name : Text}
    {permCreateDomain permDeleteDomain permManageTokens autoPolicy : Bool}
    {maxAge maxUnusedPeriod : Option Nat} {userOverride : Option Text} (s : Store Hash) :
    Keeps env s (createToken env owner name permCreateDomain permDeleteDomain permManageTokens
      autoPolicy maxAge maxUnusedPeriod userOverride s) := by
  have inserted : Keeps env s (insertToken env owner name none permCreateDomain permDeleteDomain
      permManageTokens autoPolicy maxAge maxUnusedPeriod s) := keeps_insertToken (by simp) s
  cases userOverride with
  | none => exact inserted
  | some email =>
    unfold createToken
    dsimp only
    split
    · exact inserted
    · exact (inserted.trans (keeps_createUser _)).trans (keeps_issue _ _)

private theorem alters_verifyFactor (factor : Nat) (code : Text) (auth : Option Nat)
    (policiesAdmit : Bool)
    (s : Store Hash) : Alters env s (.verifyFactor factor code auth policiesAdmit)
      (verifyFactor env factor code auth policiesAdmit s) := by
  rw [verifyFactor]
  split
  · exact alters_of_keeps (Keeps.refl s)
  · next row found =>
    dsimp only
    split
    · exact alters_of_keeps (Keeps.refl s)
    · split
      · exact alters_of_keeps (keeps_of_eq le_rfl (Nat.le_succ _) rfl)
      · next t verified =>
        have kept := keeps_verify verified
        split
        · exact alters_of_keeps kept
        · next inUse =>
          cases auth with
          | none => exact alters_of_keeps kept
          | some id =>
            rw [Option.elim_some, stepUp]
            cases stepping : (t.findToken id).bind fun token =>
                saveToken policiesAdmit { token with mfa := some true } t with
            | none => exact alters_of_keeps kept
            | some u =>
              obtain ⟨token, isOwn, saved⟩ := Option.bind_eq_some_iff.mp stepping
              have same := tokens_verify verified
              have own : token.id = id := findToken_id isOwn
              have there : token ∈ s.tokens := same ▸ mem_of_findToken isOwn
              refine alters_saveToken saved same kept.nextId kept.calls there rfl fun _ =>
                .steppedUp factor code policiesAdmit row (by rw [own]) found ?_ ?_
              · cases used : row.totp.lastUsed with
                | none => simp [used] at inUse
                | some time => rfl
              · rw [verified]
                rfl

/-- Each operation changes, removes and inserts token rows in these ways only. -/
theorem alters_step [DecidableEq Hash] (s : Store Hash) (operation : Operation Hash) :
    Alters env s operation (step env s operation) := by
  have kept (keeps : Keeps env s (step env s operation)) :
      Alters env s operation (step env s operation) := alters_of_keeps keeps
  have unchanged {t : Store Hash} (nextId : s.nextId ≤ t.nextId) (calls : s.calls ≤ t.calls)
      (same : t.tokens = s.tokens) : Keeps env s t := keeps_of_eq nextId calls same
  cases operation with
  | register email password captcha outreachPreference domain =>
    refine kept ?_
    rw [step, register]
    split
    · exact Keeps.refl s
    · exact (keeps_createUser s).trans (keeps_issue _ _)
  | login user => exact kept (keeps_ite (keeps_login user s))
  | useToken id =>
    refine alters_of_map le_rfl (Nat.le_succ _) rfl (fun token => ?_) fun token there => ?_
    · split <;> rfl
    · refine ⟨token, there, ?_⟩
      split
      · next concerned => exact .used (by rw [concerned])
      · exact .kept
  | updateAccount user outreachPreference =>
    exact kept (keeps_ite (unchanged le_rfl le_rfl rfl))
  | requestDeletion user =>
    refine kept (keeps_ite ?_)
    rw [requestDeletion]
    split
    · exact Keeps.refl s
    · exact keeps_issue _ s
  | requestEmailChange user newEmail =>
    refine kept (keeps_ite ?_)
    rw [requestEmailChange]
    split
    · exact Keeps.refl s
    · exact keeps_issue _ s
  | requestPasswordReset email =>
    refine kept ?_
    rw [step, requestPasswordReset]
    split
    · exact keeps_ite (keeps_issue _ s)
    · exact Keeps.refl s
  | requestFactor user name =>
    refine kept (keeps_ite ?_)
    rw [requestFactor]
    split
    · exact Keeps.refl s
    · split
      · exact keeps_getD fun t created => keeps_createFactor created
      · exact keeps_issue _ s
  | renameFactor factor name =>
    refine kept (keeps_getD fun t renamed => ?_)
    obtain ⟨row, -, saved⟩ := Option.bind_eq_some_iff.mp renamed
    exact keeps_saveFactor saved
  | destroyFactor factor =>
    refine kept ?_
    rw [step, destroyFactor]
    split
    · rw [deleteFactor]
      split
      · exact unchanged le_rfl (Nat.le_succ _) rfl
      · exact unchanged le_rfl le_rfl rfl
    · exact Keeps.refl s
  | verifyFactor factor code auth policiesAdmit =>
    exact alters_verifyFactor factor code auth policiesAdmit s
  | createToken owner name permCreateDomain permDeleteDomain permManageTokens autoPolicy maxAge
      maxUnusedPeriod userOverride => exact kept (keeps_ite (keeps_createToken s))
  | updateToken id name permCreateDomain permDeleteDomain permManageTokens autoPolicy maxAge
      maxUnusedPeriod policiesAdmit =>
    rw [step, updateToken]
    cases updating : (s.findToken id).bind fun token =>
        saveToken policiesAdmit { token with
          name, permCreateDomain, permDeleteDomain, permManageTokens, autoPolicy, maxAge
          maxUnusedPeriod } s with
    | none => exact alters_of_keeps (Keeps.refl s)
    | some t =>
      obtain ⟨row, found, saved⟩ := Option.bind_eq_some_iff.mp updating
      have own : row.id = id := findToken_id found
      refine alters_saveToken saved rfl le_rfl le_rfl (mem_of_findToken found) rfl fun _ => ?_
      exact .updated _ _ _ _ _ _ _ policiesAdmit (by rw [own])
  | removeToken id => exact kept (keeps_of_sublist le_rfl le_rfl List.filter_sublist)
  | createDomain name owner isLocallyRegistrable =>
    exact kept (keeps_ite (unchanged (Nat.le_succ _) (Nat.le_succ _) rfl))
  | deleteDomain domain => exact kept (unchanged le_rfl le_rfl rfl)
  | writeRRset domain replaced => exact kept (unchanged le_rfl (Nat.le_succ _) rfl)
  | deleteRRset domain touched => exact kept (unchanged le_rfl (Nat.le_succ _) rfl)
  | publish domain => exact kept (unchanged le_rfl (Nat.le_succ _) rfl)
  | redeem code r =>
    rw [step]
    split
    · exact alters_redeem code r s
    · exact alters_of_keeps (Keeps.refl s)
  | chores =>
    refine kept ?_
    have ticked : Keeps env s s.tick := unchanged le_rfl (Nat.le_succ _) rfl
    rw [step, deleteNeverActivatedUsers]
    dsimp only
    split
    · exact ticked
    · exact ticked.trans (keeps_removeUsers _ _)
  | stopAbuse names => exact kept (unchanged le_rfl le_rfl rfl)
  | scavenge =>
    refine kept ?_
    have renewed : Keeps env s (renewTouchedDomains env s) := unchanged le_rfl (Nat.le_succ _) rfl
    exact ((renewed.trans (keeps_warnDomainDeletion _ _ _)).trans
      (keeps_warnDomainDeletion _ _ _)).trans (keeps_deleteDomains _ _)
  | outreachEmail reason emails =>
    exact kept (keeps_foldl (fun t (user : User) => keeps_mail (reason.action user.id) t) _ s)

theorem ordered_empty : Ordered (Store.empty Hash) := ⟨List.Pairwise.nil, nofun⟩

end Steps

end DesecStack.Accounts.TokenRows
