/- module: DesecStack/Accounts/SingleUse
   source: api/desecapi/models/authenticated_actions.py, api/desecapi/models/users.py,
     api/desecapi/models/mfa.py
   digest: Verification codes are redeemed once, and do not outlive a change of credentials. -/

import DesecStack.Accounts.Signed
import DesecStack.Accounts.Steps

set_option autoImplicit false
set_option relaxedAutoImplicit false

namespace DesecStack.Accounts.SingleUse

open Library.PyText (Text ofInt_natCast_injective)
open Actions Operations Codes Preserved Steps
open Signed (plainEnvironment)

/-- The actions that change what their own state says. -/
def singleUse : Action → Bool
  | .renewDomain .. => true
  | action => action.isUserAction

section Statements

variable {Hash : Type} [DecidableEq Hash] (env : Environment Hash)

/-- With this request, `act` has returned. -/
def Redeemed (s : Store Hash) (code : Code Hash) (r : Redemption) : Prop :=
  (step env s (.redeem code r)).redeemed = s.redeemed ++ [code]

/-- The code is from an account operation. An operator can mail codes for activations and factors
at any time; for the other actions, it does not matter who has sent the code. -/
def Requested (s : Store Hash) (code : Code Hash) : Prop :=
  code ∈ s.issued ∨
    code.action.isActivation = false ∧ ∀ user name, code.action ≠ .createTotp user name

/-- Codes that are redeemed never validate again. -/
def RedeemedOnce (s : Store Hash) : Prop :=
  ∀ code r, singleUse code.action = true → Requested s code → Redeemed env s code r →
    ∀ future, validates env (run env future (step env s (.redeem code r))) code = false

/-- What changes the credentials of a user between two states. -/
inductive CredentialChange (s s' : Store Hash) (before after : User) : Prop
  | email (changed : after.email ≠ before.email)
  | password (changed : after.password ≠ before.password)
  | redeemed (code : Code Hash) (r : Redemption) (now : s' = step env s (.redeem code r))
      (redeemed : Redeemed env s code r) (kind : code.action = .resetPassword before.id ∨
        ∃ newEmail, code.action = .changeEmail before.id newEmail)
  | created (off : s.mfaEnabled before.id = false) (factor : Factor) (member : factor ∈ s'.factors)
      (owned : factor.user = before.id) (new : ∀ old ∈ s.factors, old.id ≠ factor.id)
  | activated (off : s.mfaEnabled before.id = false) (on : s'.mfaEnabled before.id = true)
  | deleted (factor : Factor) (member : factor ∈ s.factors) (owned : factor.user = before.id)
      (used : factor.totp.lastUsed.isSome = true) (gone : ∀ kept ∈ s'.factors, kept.id ≠ factor.id)

/-- Credentials changes move `credentials_changed`, and when that has moved, the codes for
`AuthenticatedUserAction`s that were sent before never validate again. -/
def DeadWithCredentials (s : Store Hash) : Prop :=
  ∀ between, ∀ before ∈ s.users, ∀ after ∈ (run env between s).users, after.id = before.id →
    (CredentialChange env s (run env between s) before after →
      before.credentialsChanged < after.credentialsChanged) ∧
    (before.credentialsChanged ≠ after.credentialsChanged →
      ∀ code, code ∈ s.issued ∨ code ∈ s.mailed → code.action.isUserAction = true →
        code.action.user = before.id →
          ∀ future, validates env (run env future (run env between s)) code = false)

end Statements

section Acts

variable {Hash : Type} {env : Environment Hash} {s s' : Store Hash} {code : Code Hash}
  {r : Redemption}

private theorem redeemed_of_raises {action : Action} (raised : act env action r s = (s', false)) :
    s'.redeemed = s.redeemed := by
  have atomic {result : Option (Store Hash)} {t : Store Hash}
      (raised : atomically t result = (s', false)) (same : t.redeemed = s.redeemed) :
      s'.redeemed = s.redeemed := by
    cases result with
    | none => exact (Prod.mk.inj raised).1 ▸ same
    | some => cases (Prod.mk.inj raised).2
  cases action with
  | activateWithOverrideToken user token => exact atomic raised rfl
  | changeEmail user newEmail => exact atomic raised rfl
  | createTotp user name => exact atomic raised rfl
  | deleteAccount user => exact atomic raised rfl
  | _ => cases (Prod.mk.inj raised).2

private theorem some_of_atomically {result : Option (Store Hash)}
    (done : atomically s result = (s', true)) : result = some s' := by
  cases result with
  | none => cases (Prod.mk.inj done).2
  | some => exact congrArg some (Prod.mk.inj done).1

private theorem redeemed_cases [DecidableEq Hash] (distinguishing : Distinguishing env)
    (redeemed : Redeemed env s code r) :
    state env s code.action = some code.state ∧ ∃ s', act env code.action r s = (s', true) ∧
      Leads env s' (step env s (.redeem code r)) := by
  have unchanged {t : Store Hash} (same : t.redeemed = s.redeemed)
      (grown : t.redeemed = s.redeemed ++ [code]) : False := by
    have lengths := congrArg List.length (same.symm.trans grown)
    simp at lengths
  rw [Redeemed, step] at redeemed
  rw [step]
  split at redeemed
  · next sent =>
    rw [if_pos sent]
    rw [redeem] at redeemed ⊢
    split at redeemed
    · exact (unchanged rfl redeemed).elim
    · next user found =>
      split at redeemed
      · next admitted =>
        rw [if_pos admitted]
        rw [Bool.and_eq_true] at admitted
        refine ⟨state_of_validates admitted.2, ?_⟩
        rw [perform] at redeemed ⊢
        split at redeemed
        · next s' raised => exact (unchanged (redeemed_of_raises raised) redeemed).elim
        · next s' done =>
          refine ⟨s', done, ?_⟩
          have kept : Leads env s' { s' with redeemed := s'.redeemed ++ [code] } :=
            leads_same distinguishing rfl rfl rfl le_rfl le_rfl rfl rfl
          dsimp only
          split
          · exact kept.trans (leads_finalize distinguishing _ _ _ _)
          · exact kept
      · exact (unchanged rfl redeemed).elim
  · exact (unchanged rfl redeemed).elim

private theorem updated_of_mem {Row : Type} {id : Row → Nat} {target : Nat} {change : Row → Row}
    {rows : List Row} {row : Row}
    (member : row ∈ rows.map fun old => if id old = target then change old else old)
    (same : id row = target) : ∃ old ∈ rows, row = change old := by
  obtain ⟨old, there, rfl⟩ := List.mem_map.mp member
  by_cases concerned : id old = target
  · exact ⟨old, there, if_pos concerned⟩
  · rw [if_neg concerned] at same
    exact absurd same concerned

private theorem credentials_of_changeCredentials {target : Nat} {change : User → User} :
    ∀ user ∈ (changeCredentials env target change s).users, user.id = target →
      user.credentialsChanged = s.now env := by
  intro user member same
  obtain ⟨old, -, rfl⟩ := updated_of_mem member same
  rfl

private theorem credentials_of_act (done : act env code.action r s = (s', true))
    (kind : code.action = .resetPassword code.action.user ∨
      (∃ newEmail, code.action = .changeEmail code.action.user newEmail) ∨
      ∃ name, code.action = .createTotp code.action.user name ∧
        s.mfaEnabled code.action.user = false) :
    ∀ user ∈ s'.users, user.id = code.action.user → user.credentialsChanged = s.now env := by
  generalize code.action = action at *
  rcases kind with kind | ⟨newEmail, kind⟩ | ⟨name, kind, off⟩
  · rw [kind] at done
    cases (Prod.mk.inj done).1
    exact credentials_of_changeCredentials
  · rw [kind] at done
    have changed := some_of_atomically done
    rw [changeEmail] at changed
    split at changed
    · cases changed
    · cases changed
      exact credentials_of_changeCredentials
  · rw [kind] at done
    have created := some_of_atomically done
    rw [createFactor, saveFactor] at created
    split at created
    · cases created
    · have still : Store.mfaEnabled { s with nextId := s.nextId + 1 } action.user = false := off
      rw [still] at created
      cases created
      exact credentials_of_changeCredentials

private theorem isActive_of_act (done : act env code.action r s = (s', true))
    (activation : code.action.isActivation = true) :
    ∀ user ∈ s'.users, user.id = code.action.user → user.isActive ≠ none := by
  have activated (t : Store Hash) (target : Nat) :
      ∀ user ∈ (activate target t).users, user.id = target → user.isActive ≠ none := by
    intro user member same
    obtain ⟨old, -, rfl⟩ := updated_of_mem member same
    exact nofun
  generalize code.action = action at *
  cases action with
  | activate user domain =>
    cases (Prod.mk.inj done).1
    exact activated s user
  | activateWithOverrideToken user token =>
    obtain ⟨row, _, saved⟩ := Option.bind_eq_some_iff.mp (some_of_atomically done)
    rw [saveToken] at saved
    split at saved
    · cases saved
      exact activated _ user
    · cases saved
  | _ => cases activation

private theorem gone_of_act {user : Nat} (kind : code.action = .deleteAccount user)
    (done : act env code.action r s = (s', true)) : ∀ row ∈ s'.users, row.id ≠ user := by
  rw [kind] at done
  have deleted := some_of_atomically done
  rw [deleteUser] at deleted
  split at deleted
  · cases deleted
  · cases deleted
    intro row member same
    simpa [same] using (List.mem_filter.mp member).2

private theorem renewalChanged_of_act {user domain : Nat}
    (kind : code.action = .renewDomain user domain)
    (done : act env code.action r s = (s', true)) :
    ∀ row ∈ s'.domains, row.id = domain → row.renewalChanged = s.now env := by
  rw [kind] at done
  cases (Prod.mk.inj done).1
  intro row member same
  obtain ⟨old, -, rfl⟩ := updated_of_mem member same
  rfl

end Acts

section Spent

variable {Hash : Type} (env : Environment Hash)

/-- What the code says about its user or its domain is over. -/
def Spent (s : Store Hash) (code : Code Hash) : Prop :=
  code.action.isUserAction = true ∧ Outdated env s code ∨
    ∃ user domain, code.action = .renewDomain user domain ∧ Superseded env s code domain

variable {env} {s s' : Store Hash} {code : Code Hash}

private theorem Spent.follows (spent : Spent env s code) (follows : Follows s s') :
    Spent env s' code := by
  rcases spent with ⟨kind, outdated⟩ | ⟨user, domain, kind, superseded⟩
  · exact .inl ⟨kind, outdated.follows follows⟩
  · exact .inr ⟨user, domain, kind, superseded.follows follows⟩

private theorem validates_of_spent [DecidableEq Hash] (distinguishing : Distinguishing env)
    (spent : Spent env s code) : validates env s code = false := by
  rcases spent with ⟨kind, outdated⟩ | ⟨user, domain, kind, superseded⟩
  · exact validates_of_outdated distinguishing kind outdated
  · exact validates_of_superseded distinguishing kind superseded

private theorem mfaEnabled_of_state (distinguishing : Distinguishing env) (sound : Sound env s)
    {user : Nat} {name : Text} (kind : code.action = .createTotp user name)
    (issued : code ∈ s.issued) (computed : state env s code.action = some code.state) :
    s.mfaEnabled user = false := by
  obtain ⟨time, isActive, before, past⟩ := (sound.regular code issued).totp user name kind
  obtain ⟨row, member, same, dated⟩ := dated_of_state computed (by rw [kind]; rfl)
  rw [kind] at same
  exact (past row member same).2 (dated_inj distinguishing dated before).1

variable {r : Redemption}

private theorem spent_of_act (distinguishing : Distinguishing env) (sound : Sound env s)
    (single : singleUse code.action = true) (requested : Requested s code)
    (computed : state env s code.action = some code.state)
    (done : act env code.action r s = (s', true)) : Spent env s' code := by
  have acted : Leads env s s' := by
    have leads := leads_act distinguishing code.action r s
    rwa [done] at leads
  have follows := (acted sound).2
  have issued (kind : code.action.isActivation = true ∨
      ∃ user name, code.action = .createTotp user name) : code ∈ s.issued := by
    rcases requested with issued | ⟨activation, totp⟩
    · exact issued
    · rcases kind with kind | ⟨user, name, kind⟩
      · exact absurd (kind.symm.trans activation) nofun
      · exact absurd kind (totp user name)
  -- For an `AuthenticatedUserAction`, credentials change, or activation is not pending any more.
  have outdated (kind : code.action.isUserAction = true)
      (past : ∀ user ∈ s.users, Dated env code user.credentialsChanged user.isActive →
        user.id = code.action.user → ∀ row ∈ s'.users, row.id = code.action.user →
          row.credentialsChanged = s.now env ∨ user.isActive = none ∧ row.isActive ≠ none) :
      Spent env s' code := by
    obtain ⟨user, member, same, dated⟩ := dated_of_state computed kind
    obtain ⟨given, earlier⟩ := sound.tables.users user member
    have issued : code.action.user < s'.nextId := same ▸ given.trans_le follows.nextId
    refine .inl ⟨kind, issued, _, _, dated, fun row there sameRow => ?_⟩
    rcases past user member dated same row there sameRow with now | decided
    · exact .inl (now ▸ earlier)
    · exact .inr decided
  have activated (kind : code.action.isUserAction = true)
      (activation : code.action.isActivation = true) : Spent env s' code := by
    obtain ⟨time, pending⟩ := (sound.regular code (issued (.inl activation))).activation activation
    refine outdated kind fun user _ dated _ row there sameRow => .inr ⟨?_, ?_⟩
    · exact (dated_inj distinguishing dated pending).2
    · exact isActive_of_act done activation row there sameRow
  cases kind : code.action with
  | changeOutreachPreference => rw [kind] at single; cases single
  | confirmAccount => rw [kind] at single; cases single
  | activate => exact activated (by rw [kind]; rfl) (by rw [kind]; rfl)
  | activateWithOverrideToken => exact activated (by rw [kind]; rfl) (by rw [kind]; rfl)
  | changeEmail user newEmail =>
    refine outdated (by rw [kind]; rfl) fun _ _ _ _ row there sameRow => .inl ?_
    refine credentials_of_act done (.inr (.inl ⟨newEmail, ?_⟩)) row there sameRow
    rw [kind]
    rfl
  | resetPassword user =>
    refine outdated (by rw [kind]; rfl) fun _ _ _ _ row there sameRow => .inl ?_
    refine credentials_of_act done (.inl ?_) row there sameRow
    rw [kind]
    rfl
  | createTotp user name =>
    have off := mfaEnabled_of_state distinguishing sound kind (issued (.inr ⟨user, name, kind⟩))
      computed
    refine outdated (by rw [kind]; rfl) fun _ _ _ _ row there sameRow => .inl ?_
    refine credentials_of_act done (.inr (.inr ⟨name, ?_⟩)) row there sameRow
    rw [kind]
    exact ⟨rfl, off⟩
  | deleteAccount user =>
    refine outdated (by rw [kind]; rfl) fun _ _ _ _ row there sameRow => ?_
    rw [kind] at sameRow
    exact absurd sameRow (gone_of_act kind done row there)
  | renewDomain user domain =>
    obtain ⟨old, member, same, renewed⟩ := renewed_of_state kind computed
    obtain ⟨given, time, past, bounded⟩ := sound.tables.domains old member
    refine .inr ⟨user, domain, kind, same ▸ given.trans_le follows.nextId, _, renewed, ?_⟩
    intro row there sameRow
    rw [renewalChanged_of_act kind done row there sameRow]
    exact bounded.renewalChanged.trans_lt past

private theorem spent_of_redeemed [DecidableEq Hash] (distinguishing : Distinguishing env)
    (sound : Sound env s) (single : singleUse code.action = true) (requested : Requested s code)
    (redeemed : Redeemed env s code r) : Spent env (step env s (.redeem code r)) code := by
  obtain ⟨computed, s', done, later⟩ := redeemed_cases distinguishing redeemed
  have acted := leads_act distinguishing code.action r s
  rw [done] at acted
  have spent := spent_of_act distinguishing sound single requested computed done
  exact spent.follows (later (acted sound).1).2

end Spent

section Credentials

variable {Hash : Type} {env : Environment Hash} {s s' : Store Hash} {before after : User}

/-- What was known about the credentials is over when they have changed. -/
theorem outdated_of_moved (sound : Sound env s) (sound' : Sound env s') (follows : Follows s s')
    (member : after ∈ s'.users) (continues : Continues s s' before after)
    (there : before ∈ s.users) (moved : before.credentialsChanged ≠ after.credentialsChanged)
    {code : Code Hash} (sent : code ∈ s.issued ∨ code ∈ s.mailed)
    (kind : code.action.isUserAction = true) (user : code.action.user = before.id) :
    Outdated env s' code := by
  have known := sound.known code sent
  obtain ⟨time, isActive, dated, past⟩ := known.dated kind
  refine ⟨known.user.trans_le follows.nextId, time, isActive, dated, fun row present same => ?_⟩
  obtain rfl := sound'.tables.userIds row present after member
    (same.trans (user.trans continues.id.symm))
  have earlier := past before there user.symm
  have later := continues.credentialsChanged
  exact .inl (by omega)

/-- Where credentials have not changed, nothing has happened to email, password and factors. -/
theorem moved_of_credentialChange [DecidableEq Hash] (distinguishing : Distinguishing env)
    (sound : Sound env s) (continues : Continues s s' before after) (member : after ∈ s'.users)
    (there : before ∈ s.users) (change : CredentialChange env s s' before after) :
    before.credentialsChanged < after.credentialsChanged := by
  refine lt_of_le_of_ne continues.credentialsChanged fun same => ?_
  obtain ⟨email, password, factors⟩ := continues.unchanged same.symm
  cases change with
  | email changed => exact changed email
  | password changed => exact changed password
  | redeemed code r now redeemed kind =>
    subst now
    obtain ⟨computed, t, done, later⟩ := redeemed_cases distinguishing redeemed
    have acted := leads_act distinguishing code.action r s
    rw [done] at acted
    obtain ⟨soundMid, follows⟩ := acted sound
    obtain ⟨given, earlier⟩ := sound.tables.users before there
    -- The row after `act` has the time of the call.
    have user : code.action.user = before.id := by
      rcases kind with kind | ⟨newEmail, kind⟩ <;> rw [kind] <;> rfl
    obtain ⟨mid, present, last⟩ := (later soundMid).2.users after member
      (continues.id ▸ given.trans_le follows.nextId)
    have now := credentials_of_act done (by rw [user]; exact kind.imp_right .inl) mid present
      (last.id.symm.trans (continues.id.trans user.symm))
    have latest := last.credentialsChanged
    omega
  | created off factor member owned new =>
    obtain ⟨old, present, sameId, _⟩ := (factors.off off).2 factor member owned
    exact new old present sameId
  | activated off on => exact absurd ((factors.off off).1.symm.trans on) nofun
  | deleted factor member owned used gone =>
    obtain ⟨kept, present, sameId, _⟩ := factors.used factor member owned used
    exact gone kept present sameId

end Credentials

/-- In every state of a run, verification codes are single-use, and die with a credential change. -/
theorem codes_expire {Hash : Type} [DecidableEq Hash] {env : Environment Hash}
    (distinguishing : Distinguishing env) (past : List (Operation Hash)) :
    RedeemedOnce env (run env past (Store.empty Hash)) ∧
      DeadWithCredentials env (run env past (Store.empty Hash)) := by
  have sound := sound_run distinguishing past
  constructor
  · intro code r single requested redeemed future
    have spent := spent_of_redeemed distinguishing sound single requested redeemed
    have sound' := (leads_step distinguishing _ (.redeem code r) sound).1
    have later := (leads_run distinguishing future _ sound').2
    exact validates_of_spent distinguishing (spent.follows later)
  · intro between before there after member same
    obtain ⟨sound', follows⟩ := leads_run distinguishing between _ sound
    obtain ⟨old, present, continues⟩ := follows.users after member
      (same ▸ (sound.tables.users before there).1)
    obtain rfl := sound.tables.userIds old present before there (continues.id.symm.trans same)
    refine ⟨moved_of_credentialChange distinguishing sound continues member there, ?_⟩
    intro moved code sent kind user future
    have outdated := outdated_of_moved sound sound' follows member continues there moved sent kind
      user
    have later := (leads_run distinguishing future _ sound').2
    exact validates_of_outdated distinguishing kind (outdated.follows later)

section Account

theorem plainEnvironment_distinguishing : Distinguishing plainEnvironment where
  clock := fun _ _ earlier => Nat.succ_lt_succ earlier
  sha256 := fun _ _ same => same
  isoformat := fun _ _ same => ofInt_natCast_injective
    (List.append_cancel_left (List.append_cancel_right same))
  str := fun _ _ same => ofInt_natCast_injective
    (List.append_cancel_left (List.append_cancel_right same))

/-- A code for an action, as it would be sent after some operations. -/
def codeAfter (operations : List (Operation Text)) (action : Action) : Code Text :=
  ⟨action, (state plainEnvironment (run plainEnvironment operations (Store.empty Text)) action).getD
    []⟩

def confirmation : Redemption := ⟨false, none, true, "changed".toList, true, .raises⟩

def registered : List (Operation Text) :=
  [.register "user@mail.test".toList (some "password".toList) true true none]

def activation : Code Text := codeAfter registered (.activate 0 none)

/-- The user asks for a new password, and to be deleted. -/
def activated : List (Operation Text) :=
  registered ++ [.redeem activation confirmation, .requestPasswordReset "user@mail.test".toList,
    .requestDeletion 0]

/-- The user, with a password from some time. -/
def userSince (password : Text) (credentialsChanged : Nat) : User :=
  ⟨0, "user@mail.test".toList, some password, some true, 1, credentialsChanged, none, false, true⟩

theorem codes_expire_account :
    (∀ future, validates plainEnvironment
      (run plainEnvironment future
        (step plainEnvironment (run plainEnvironment registered (Store.empty Text))
          (.redeem activation confirmation))) activation = false) ∧
    ∀ future, validates plainEnvironment
      (run plainEnvironment future
        (run plainEnvironment [.redeem (codeAfter activated (.resetPassword 0)) confirmation]
          (run plainEnvironment activated (Store.empty Text))))
      (codeAfter activated (.deleteAccount 0)) = false := by
  constructor
  · have redeemed : Redeemed plainEnvironment
        (run plainEnvironment registered (Store.empty Text)) activation confirmation := by
      rw [Redeemed]
      decide +kernel
    exact (codes_expire plainEnvironment_distinguishing registered).1 activation confirmation rfl
      (.inl (by decide +kernel)) redeemed
  · exact ((codes_expire plainEnvironment_distinguishing activated).2
      [.redeem (codeAfter activated (.resetPassword 0)) confirmation]
      (userSince "password".toList 2) (by decide +kernel) (userSince "changed".toList 3)
      (by decide +kernel) rfl).2 (by decide) (codeAfter activated (.deleteAccount 0))
      (.inl (by decide +kernel)) rfl rfl

end Account

end DesecStack.Accounts.SingleUse
