/- module: DesecStack/Accounts/Lifecycle
   source: api/desecapi/models/users.py, api/desecapi/views/users.py,
     api/desecapi/views/authenticated_actions.py, api/desecapi/management/commands
   digest: How accounts come, change and go with each operation. -/

import DesecStack.Accounts.Codes

set_option autoImplicit false
set_option relaxedAutoImplicit false

namespace DesecStack.Accounts.Lifecycle

open Library.PyText (Text)
open Domains.Scavenge (Domain RenewalState)
open Actions Operations Codes

/-- Two rows of one account, with the same credentials and the same status. -/
structure Same (before after : User) : Prop where
  id : after.id = before.id
  email : after.email = before.email
  password : after.password = before.password
  isActive : after.isActive = before.isActive

theorem Same.refl (user : User) : Same user user := ⟨rfl, rfl, rfl, rfl⟩

theorem Same.trans {before mid after : User} (first : Same before mid) (second : Same mid after) :
    Same before after :=
  ⟨second.id.trans first.id, second.email.trans first.email,
    second.password.trans first.password, second.isActive.trans first.isActive⟩

section Relations

variable {Hash : Type}

/-- The code has been sent, by an account operation or by an operator. -/
def Out (s : Store Hash) (code : Code Hash) : Prop := code ∈ s.issued ∨ code ∈ s.mailed

/-- Accounts stay as they are, unless they go, new ones wait for activation, and no codes for an
`AuthenticatedUserAction` are sent. -/
structure Keeps (gone : Nat → Prop) (s s' : Store Hash) : Prop where
  nextId : s.nextId ≤ s'.nextId
  users : ∀ after ∈ s'.users,
    (∃ before ∈ s.users, Same before after) ∨ s.nextId ≤ after.id ∧ after.isActive = none
  stay : ∀ before ∈ s.users, gone before.id ∨ ∃ after ∈ s'.users, after.id = before.id
  codes : ∀ code, Out s' code → Out s code ∨ code.action.isUserAction = false

/-- No account goes. -/
abbrev Quiet (s s' : Store Hash) : Prop := Keeps (fun _ => False) s s'

variable {gone : Nat → Prop} {s t u : Store Hash}

private theorem Keeps.trans (first : Keeps gone s t) (second : Keeps gone t u) :
    Keeps gone s u where
  nextId := first.nextId.trans second.nextId
  users := by
    intro after member
    rcases second.users after member with ⟨mid, there, same⟩ | ⟨new, pending⟩
    · rcases first.users mid there with ⟨before, present, earlier⟩ | ⟨new, pending⟩
      · exact Or.inl ⟨before, present, earlier.trans same⟩
      · exact Or.inr ⟨same.id ▸ new, same.isActive.trans pending⟩
    · exact Or.inr ⟨first.nextId.trans new, pending⟩
  stay := by
    intro before member
    rcases first.stay before member with goes | ⟨mid, there, same⟩
    · exact Or.inl goes
    · rcases second.stay mid there with goes | ⟨after, present, again⟩
      · exact Or.inl (same ▸ goes)
      · exact Or.inr ⟨after, present, again.trans same⟩
  codes := by
    intro code out
    rcases second.codes code out with between | other
    · exact first.codes code between
    · exact Or.inr other

private theorem Keeps.weaken {more : Nat → Prop} (keeps : Keeps gone s t)
    (implies : ∀ id, gone id → more id) : Keeps more s t where
  nextId := keeps.nextId
  users := keeps.users
  stay := fun before member => (keeps.stay before member).imp_left (implies before.id)
  codes := keeps.codes

private theorem quiet_of_users (users : t.users = s.users) (nextId : s.nextId ≤ t.nextId)
    (codes : ∀ code, Out t code → Out s code ∨ code.action.isUserAction = false) : Quiet s t where
  nextId := nextId
  users := fun user member => Or.inl ⟨user, users ▸ member, Same.refl user⟩
  stay := fun user member => Or.inr ⟨user, users ▸ member, rfl⟩
  codes := codes

private theorem quiet_of_eq (users : t.users = s.users) (nextId : s.nextId ≤ t.nextId)
    (issued : t.issued = s.issued) (mailed : t.mailed = s.mailed) : Quiet s t :=
  quiet_of_users users nextId fun code out => Or.inl (by rwa [Out, issued, mailed] at out)

private theorem Keeps.refl (s : Store Hash) : Keeps gone s s :=
  (quiet_of_eq rfl le_rfl rfl rfl).weaken fun _ never => never.elim

private theorem keeps_getD {result : Option (Store Hash)}
    (done : ∀ t, result = some t → Keeps gone s t) :
    Keeps gone s (result.getD s) := by
  cases result with
  | none => exact Keeps.refl s
  | some t => exact done t rfl

private theorem keeps_foldl {α : Type} {f : Store Hash → α → Store Hash}
    (each : ∀ s item, Keeps gone s (f s item)) (items : List α) (s : Store Hash) :
    Keeps gone s (items.foldl f s) := by
  induction items generalizing s with
  | nil => exact Keeps.refl s
  | cons item items ih => exact (each s item).trans (ih _)

end Relations

section Saves

variable {Hash : Type} {env : Environment Hash} {s t : Store Hash}

private theorem quiet_saveUser (target : Nat) {change : User → User} (s : Store Hash)
    (same : ∀ user, Same user (change user)) : Quiet s (saveUser target change s) where
  nextId := le_rfl
  users := by
    intro after member
    obtain ⟨before, there, rfl⟩ := List.mem_map.mp member
    refine Or.inl ⟨before, there, ?_⟩
    split
    · exact same before
    · exact Same.refl before
  stay := by
    intro before member
    refine Or.inr ⟨_, List.mem_map_of_mem member, ?_⟩
    split
    · exact (same before).id
    · rfl
  codes := fun _ out => Or.inl out

private theorem quiet_changeCredentials (target : Nat) {change : User → User} (s : Store Hash)
    (same : ∀ user, Same user (change user)) : Quiet s (changeCredentials env target change s) :=
  have ticked : Quiet s s.tick := quiet_of_eq rfl le_rfl rfl rfl
  ticked.trans (quiet_saveUser target s.tick fun user =>
    ⟨(same user).id, (same user).email, (same user).password, (same user).isActive⟩)

private theorem keeps_removeUsers (removed : Nat → Bool) (s : Store Hash) :
    Keeps (fun id => removed id = true) s (removeUsers removed s) where
  nextId := le_rfl
  users := fun user member => Or.inl ⟨user, List.mem_of_mem_filter member, Same.refl user⟩
  stay := by
    intro user member
    by_cases goes : removed user.id = true
    · exact Or.inl goes
    · exact Or.inr ⟨user, List.mem_filter.mpr ⟨member, by simpa using goes⟩, rfl⟩
  codes := fun _ out => Or.inl out

private theorem keeps_deleteUser (target : Nat) (s : Store Hash) :
    Keeps (· = target) s ((deleteUser target s).getD s) := by
  refine keeps_getD fun t deleted => ?_
  rw [deleteUser] at deleted
  split at deleted
  · cases deleted
  · cases deleted
    exact (keeps_removeUsers _ s).weaken fun id goes => of_decide_eq_true goes

private theorem quiet_createUser {email : Text} {password : Option Text}
    {needsCaptcha outreachPreference : Bool} (s : Store Hash) :
    Quiet s (createUser env email password needsCaptcha outreachPreference s) where
  nextId := Nat.le_succ _
  users := by
    intro user member
    rcases List.mem_append.mp member with old | new
    · exact Or.inl ⟨user, old, Same.refl user⟩
    · rw [List.mem_singleton.mp new]
      exact Or.inr ⟨le_rfl, rfl⟩
  stay := fun user member => Or.inr ⟨user, List.mem_append_left _ member, rfl⟩
  codes := fun _ out => Or.inl out

private theorem quiet_saveFactor {factor : Factor} (saved : saveFactor env factor s = some t) :
    Quiet s t := by
  rw [saveFactor] at saved
  split at saved
  · cases saved
  · cases saved
    have changed : Quiet s (changeCredentials env factor.user id s) :=
      quiet_changeCredentials factor.user s Same.refl
    split
    · exact quiet_of_eq rfl le_rfl rfl rfl
    · exact changed.trans (quiet_of_eq rfl le_rfl rfl rfl)

private theorem quiet_createFactor {user : Nat} {name : Text}
    (created : createFactor env user name s = some t) : Quiet s t :=
  have counted : Quiet s { s with nextId := s.nextId + 1 } :=
    quiet_of_eq rfl (Nat.le_succ _) rfl rfl
  counted.trans (quiet_saveFactor created)

private theorem quiet_saveToken {policiesAdmit : Bool} {token : Token}
    (saved : saveToken policiesAdmit token s = some t) : Quiet s t := by
  rw [saveToken] at saved
  split at saved
  · cases saved
    exact quiet_of_eq rfl le_rfl rfl rfl
  · cases saved

private theorem quiet_stepUp (policiesAdmit : Bool) (id : Nat) (s : Store Hash) :
    Quiet s (stepUp policiesAdmit id s) := by
  refine keeps_getD fun t done => ?_
  obtain ⟨token, -, saved⟩ := Option.bind_eq_some_iff.mp done
  exact quiet_saveToken saved

private theorem quiet_verifyFactor (id : Nat) (code : Text) (auth : Option Nat)
    (policiesAdmit : Bool)
    (s : Store Hash) : Quiet s (verifyFactor env id code auth policiesAdmit s) := by
  have ticked : Quiet s s.tick := quiet_of_eq rfl le_rfl rfl rfl
  rw [verifyFactor]
  split
  · exact Keeps.refl s
  · dsimp only
    split
    · exact Keeps.refl s
    · split
      · exact ticked
      · next t verified =>
        obtain ⟨timestep, -, saved⟩ := Option.bind_eq_some_iff.mp verified
        have used : Quiet s t := ticked.trans (quiet_saveFactor saved)
        split
        · exact used
        · cases auth with
          | none => exact used
          | some token => exact used.trans (quiet_stepUp policiesAdmit token t)

private theorem quiet_issue {action : Action} (other : action.isUserAction = false)
    (s : Store Hash) :
    Quiet s (issue env action s) := by
  rw [issue]
  split
  · refine quiet_of_users rfl le_rfl fun code out => ?_
    rcases out with issued | mailed
    · rcases List.mem_append.mp issued with old | new
      · exact Or.inl (Or.inl old)
      · rw [List.mem_singleton.mp new]
        exact Or.inr other
    · exact Or.inl (Or.inr mailed)
  · exact Keeps.refl s

private theorem quiet_warnDomainDeletion (renewalState : RenewalState) (inactiveDays : Nat)
    (s : Store Hash) : Quiet s (warnDomainDeletion env renewalState inactiveDays s) := by
  have ticked : Quiet s s.tick := quiet_of_eq rfl le_rfl rfl rfl
  refine ticked.trans (keeps_foldl (fun t domain => ?_) _ _)
  have stamped : Quiet t (stampDomain env domain.id
      (fun now row => { row with renewalState := row.renewalState.next, renewalChanged := now })
      t) := quiet_of_eq rfl le_rfl rfl rfl
  exact stamped.trans (quiet_issue rfl _)

end Saves

section Transitions

variable {Hash : Type} [DecidableEq Hash] (env : Environment Hash)

/-- A code that has been sent is redeemed, and is valid. -/
structure Redeems (s : Store Hash) (operation : Operation Hash) (code : Code Hash)
    (r : Redemption) : Prop where
  now : operation = .redeem code r
  out : Out s code
  unexpired : r.expired = false
  valid : validates env s code = true

/-- What an operation can do to the credentials and the status of an account. -/
inductive Evolves (s : Store Hash) (operation : Operation Hash) (before after : User) : Prop where
  | same (same : Same before after)
  | locked (names : List Text) (now : operation = .stopAbuse names)
      (email : after.email = before.email) (password : after.password = before.password)
      (isActive : after.isActive = some false)
  | activated (code : Code Hash) (r : Redemption) (redeems : Redeems env s operation code r)
      (kind : code.action.isActivation = true) (own : code.action.user = before.id)
      (unlocked : before.isActive ≠ some false) (email : after.email = before.email)
      (password : after.password = before.password) (isActive : after.isActive = some true)
  | moved (code : Code Hash) (r : Redemption) (redeems : Redeems env s operation code r)
      (kind : code.action = .changeEmail before.id after.email) (address : after.email ≠ [])
      (active : before.isActive = some true) (password : after.password = before.password)
      (isActive : after.isActive = before.isActive)
  | reset (code : Code Hash) (r : Redemption) (redeems : Redeems env s operation code r)
      (kind : code.action = .resetPassword before.id) (active : before.isActive = some true)
      (email : after.email = before.email) (password : after.password = some r.newPassword)
      (isActive : after.isActive = before.isActive)

/-- How an operation can remove an account. -/
inductive Departs (s : Store Hash) (operation : Operation Hash) (before : User) : Prop where
  | deleted (code : Code Hash) (r : Redemption) (redeems : Redeems env s operation code r)
      (kind : code.action = .deleteAccount before.id) (active : before.isActive = some true)
      (empty : s.ownsDomains before.id = false)
  | unregistered (code : Code Hash) (r : Redemption) (redeems : Redeems env s operation code r)
      (name : Text) (kind : code.action = .activate before.id (some name))
      (unavailable : r.domain = .unavailable)
  | neverActivated (now : operation = .chores) (pending : before.isActive = none)
      (late : before.created + env.validityPeriod < s.now env)
  | scavenged (now : operation = .scavenge) (domain : Domain) (member : domain ∈ s.domains)
      (owned : domain.owner = before.id)

/-- Accounts come, change and go. -/
structure Alters (s : Store Hash) (operation : Operation Hash) (s' : Store Hash) : Prop where
  nextId : s.nextId ≤ s'.nextId
  users : ∀ after ∈ s'.users,
    (∃ before ∈ s.users, after.id = before.id ∧ Evolves env s operation before after) ∨
      s.nextId ≤ after.id ∧ after.isActive = none
  stay : ∀ before ∈ s.users,
    Departs env s operation before ∨ ∃ after ∈ s'.users, after.id = before.id

/-- The code says of its user what is the case. -/
def Fits (s : Store Hash) (code : Code Hash) : Prop :=
  ∃ user ∈ s.users, user.id = code.action.user ∧
    Dated env code user.credentialsChanged user.isActive

/-- New codes fit the state that an operation leaves behind. -/
structure Transition (s : Store Hash) (operation : Operation Hash) (s' : Store Hash) : Prop
    extends Alters env s operation s' where
  codes : ∀ code, Out s' code →
    Out s code ∨ code.action.isUserAction = false ∨ Fits env s' code

variable {env} {s t u : Store Hash} {operation : Operation Hash} {gone : Nat → Prop}

private theorem Evolves.trans_same {before mid after : User}
    (evolves : Evolves env s operation before mid)
    (same : Same mid after) : Evolves env s operation before after := by
  cases evolves with
  | same earlier => exact .same (earlier.trans same)
  | locked names now email password isActive =>
    exact .locked names now (same.email.trans email) (same.password.trans password)
      (same.isActive.trans isActive)
  | activated code r redeems kind own unlocked email password isActive =>
    exact .activated code r redeems kind own unlocked (same.email.trans email)
      (same.password.trans password) (same.isActive.trans isActive)
  | moved code r redeems kind address active password isActive =>
    rw [← same.email] at kind address
    exact .moved code r redeems kind address active (same.password.trans password)
      (same.isActive.trans isActive)
  | reset code r redeems kind active email password isActive =>
    exact .reset code r redeems kind active (same.email.trans email)
      (same.password.trans password) (same.isActive.trans isActive)

private theorem alters_of_keeps (keeps : Keeps gone s t)
    (departs : ∀ before ∈ s.users, gone before.id → Departs env s operation before) :
    Alters env s operation t where
  nextId := keeps.nextId
  users := by
    intro after member
    rcases keeps.users after member with ⟨before, there, same⟩ | new
    · exact Or.inl ⟨before, there, same.id, .same same⟩
    · exact Or.inr new
  stay := fun before member => (keeps.stay before member).imp_left (departs before member)

private theorem Alters.trans_keeps (alters : Alters env s operation t) (keeps : Keeps gone t u)
    (departs : ∀ before ∈ s.users, gone before.id → Departs env s operation before) :
    Alters env s operation u where
  nextId := alters.nextId.trans keeps.nextId
  users := by
    intro after member
    rcases keeps.users after member with ⟨mid, there, same⟩ | ⟨new, pending⟩
    · rcases alters.users mid there with ⟨before, present, id, evolves⟩ | ⟨new, pending⟩
      · exact Or.inl ⟨before, present, same.id.trans id, evolves.trans_same same⟩
      · exact Or.inr ⟨same.id ▸ new, same.isActive.trans pending⟩
    · exact Or.inr ⟨alters.nextId.trans new, pending⟩
  stay := by
    intro before member
    rcases alters.stay before member with goes | ⟨mid, there, same⟩
    · exact Or.inl goes
    · rcases keeps.stay mid there with goes | ⟨after, present, again⟩
      · exact Or.inl (departs before member (same ▸ goes))
      · exact Or.inr ⟨after, present, again.trans same⟩

private theorem transition_of_keeps (keeps : Keeps gone s t)
    (departs : ∀ before ∈ s.users, gone before.id → Departs env s operation before) :
    Transition env s operation t where
  toAlters := alters_of_keeps keeps departs
  codes := fun code out => (keeps.codes code out).imp_right Or.inl

private theorem transition_of_quiet (quiet : Quiet s t) : Transition env s operation t :=
  transition_of_keeps quiet fun _ _ => False.elim

omit [DecidableEq Hash] in
private theorem fits_of_state {action : Action} {hash : Hash}
    (computed : state env s action = some hash)
    (kind : action.isUserAction = true) : Fits env s ⟨action, hash⟩ := by
  let code : Code Hash := ⟨action, hash⟩
  have dated : ∃ user ∈ s.users, user.id = code.action.user ∧
      Dated env code user.credentialsChanged user.isActive := dated_of_state computed kind
  exact dated

private theorem Alters.transition_issue (alters : Alters env s operation t)
    (codes : ∀ code, Out t code → Out s code ∨ code.action.isUserAction = false)
    (action : Action) : Transition env s operation (issue env action t) := by
  rw [issue]
  split
  · next hash computed =>
    refine { alters with codes := fun code out => ?_ }
    have old {fits : Prop} (out : Out t code) :
        Out s code ∨ code.action.isUserAction = false ∨ fits :=
      (codes code out).imp_right Or.inl
    rcases out with issued | mailed
    · rcases List.mem_append.mp issued with before | new
      · exact old (Or.inl before)
      · rw [List.mem_singleton.mp new]
        cases kind : action.isUserAction with
        | true => exact Or.inr (Or.inr (fits_of_state computed kind))
        | false => exact Or.inr (Or.inl rfl)
    · exact old (Or.inr mailed)
  · exact { alters with codes := fun code out => (codes code out).imp_right Or.inl }

private theorem transition_issue (quiet : Quiet s t) (action : Action) :
    Transition env s operation (issue env action t) :=
  (alters_of_keeps quiet fun _ _ => False.elim).transition_issue quiet.codes action

private theorem transition_refl (s : Store Hash) : Transition env s operation s :=
  transition_of_quiet (Keeps.refl s)

end Transitions

section Redemptions

variable {Hash : Type} [DecidableEq Hash] {env : Environment Hash} {s : Store Hash}
  {code : Code Hash} {r : Redemption}

private theorem alters_saveUser {operation : Operation Hash} {target : Nat} {change : User → User}
    {t : Store Hash} (users : t.users = (saveUser target change s).users)
    (nextId : s.nextId ≤ t.nextId) (id : ∀ user, (change user).id = user.id)
    (evolves : ∀ user ∈ s.users, user.id = target → Evolves env s operation user (change user)) :
    Alters env s operation t where
  nextId := nextId
  users := by
    intro after member
    rw [users] at member
    obtain ⟨before, there, rfl⟩ := List.mem_map.mp member
    refine Or.inl ⟨before, there, ?_⟩
    split
    · next concerned => exact ⟨id before, evolves before there concerned⟩
    · exact ⟨rfl, .same (Same.refl before)⟩
  stay := by
    intro before member
    rw [users]
    refine Or.inr ⟨_, List.mem_map_of_mem member, ?_⟩
    split
    · exact id before
    · rfl

omit [DecidableEq Hash] in
private theorem users_of_saveToken {policiesAdmit : Bool} {token : Token} {t : Store Hash}
    (saved : saveToken policiesAdmit token s = some t) :
    t.users = s.users ∧ t.nextId = s.nextId ∧ t.issued = s.issued ∧ t.mailed = s.mailed := by
  rw [saveToken] at saved
  split at saved
  · cases saved
    exact ⟨rfl, rfl, rfl, rfl⟩
  · cases saved

/-- The user of the code may act on it. -/
structure Admitted (env : Environment Hash) (s : Store Hash) (code : Code Hash) (r : Redemption) :
    Prop where
  redeems : Redeems env s (.redeem code r) code r
  unlocked : ∀ user ∈ s.users, user.id = code.action.user → user.isActive ≠ some false
  active : code.action.isActivation = false →
    ∀ user ∈ s.users, user.id = code.action.user → user.isActive = some true
  address : ∀ user newEmail, code.action = .changeEmail user newEmail → newEmail ≠ []
  empty : ∀ user, code.action = .deleteAccount user → s.ownsDomains user = false

private theorem alters_act (admitted : Admitted env s code r) :
    Alters env s (.redeem code r) (act env code.action r s).1 := by
  obtain ⟨redeems, unlocked, active, address, empty⟩ := admitted
  have quiet {t : Store Hash} (quiet : Quiet s t) : Alters env s (.redeem code r) t :=
    alters_of_keeps quiet fun _ _ => False.elim
  cases kind : code.action with
  | changeOutreachPreference user outreachPreference =>
    exact quiet (quiet_saveUser user s fun row => ⟨rfl, rfl, rfl, rfl⟩)
  | activate user domain =>
    rw [kind] at unlocked
    refine alters_saveUser rfl le_rfl (fun _ => rfl) fun row member own => ?_
    exact .activated code r redeems (by rw [kind]; rfl) (by rw [kind]; exact own.symm)
      (unlocked row member own) rfl rfl rfl
  | activateWithOverrideToken user token =>
    rw [kind] at unlocked
    have activated {t : Store Hash}
        (users : t.users = (activate user (saveUser user
          (fun row => { row with outreachPreference := r.outreachPreference }) s)).users)
        (nextId : t.nextId = s.nextId) : Alters env s (.redeem code r) t := by
      let change (row : User) : User :=
        { row with
          outreachPreference := r.outreachPreference, isActive := some true, needsCaptcha := false }
      have both : t.users = (saveUser user change s).users := by
        rw [users]
        simp only [activate, saveUser, List.map_map]
        refine List.map_congr_left fun row _ => ?_
        by_cases own : row.id = user <;> simp [own, change]
      refine alters_saveUser both nextId.ge (fun _ => rfl) fun row member own => ?_
      exact .activated code r redeems (by rw [kind]; rfl) (by rw [kind]; exact own.symm)
        (unlocked row member own) rfl rfl rfl
    dsimp only [act]
    generalize saving : Option.bind _ _ = result
    cases result with
    | none => exact activated rfl rfl
    | some t =>
      obtain ⟨row, -, saved⟩ := Option.bind_eq_some_iff.mp saving
      obtain ⟨users, nextId, -, -⟩ := users_of_saveToken saved
      exact activated users nextId
  | changeEmail user newEmail =>
    rw [kind] at active
    dsimp only [act]
    rw [changeEmail]
    split
    · exact quiet (Keeps.refl s)
    · refine alters_saveUser rfl le_rfl (fun _ => rfl) fun row member own => ?_
      refine .moved code r redeems ?_ (address user newEmail kind)
        (active rfl row member own) rfl rfl
      rw [kind, own]
  | confirmAccount user => exact quiet (Keeps.refl s)
  | createTotp user name =>
    dsimp only [act]
    generalize created : createFactor env user name s = result
    cases result with
    | none => exact quiet (Keeps.refl s)
    | some t => exact quiet (quiet_createFactor created)
  | resetPassword user =>
    rw [kind] at active
    refine alters_saveUser rfl le_rfl (fun _ => rfl) fun row member own => ?_
    exact .reset code r redeems (by rw [kind, own]) (active rfl row member own) rfl rfl rfl
  | deleteAccount user =>
    rw [kind] at active
    dsimp only [act]
    have deleted := keeps_deleteUser user s
    have left : (atomically s (deleteUser user s)).1 = (deleteUser user s).getD s := by
      cases deleteUser user s <;> rfl
    rw [left]
    refine alters_of_keeps deleted fun row member own => ?_
    exact .deleted code r redeems (by rw [kind, own]) (active rfl row member own)
      (own ▸ empty user kind)
  | renewDomain user domain => exact quiet (quiet_of_eq rfl le_rfl rfl rfl)

omit [DecidableEq Hash] in
private theorem codes_act (action : Action) (sent : Code Hash)
    (out : Out (act env action r s).1 sent) :
    Out s sent := by
  have atomic {result : Option (Store Hash)} {t : Store Hash}
      (out : Out (atomically t result).1 sent) (same : Out t sent → Out s sent)
      (done : ∀ u, result = some u → Out u sent → Out s sent) : Out s sent := by
    cases result with
    | none => exact same out
    | some u => exact done u rfl out
  cases action with
  | activateWithOverrideToken user token =>
    refine atomic out id fun u done out => ?_
    obtain ⟨row, -, saved⟩ := Option.bind_eq_some_iff.mp done
    obtain ⟨-, -, issued, mailed⟩ := users_of_saveToken saved
    rwa [Out, issued, mailed] at out
  | changeEmail user newEmail =>
    refine atomic out id fun u done out => ?_
    rw [changeEmail] at done
    split at done
    · cases done
    · cases done
      exact out
  | createTotp user name =>
    refine atomic out id fun u done out => ?_
    rw [createFactor, saveFactor] at done
    split at done
    · cases done
    · cases done
      split at out <;> exact out
  | deleteAccount user =>
    refine atomic out id fun u done out => ?_
    rw [deleteUser] at done
    split at done
    · cases done
    · cases done
      exact out
  | _ => exact out

private theorem transition_finalize {t : Store Hash} {user : Nat} {domain : Option Text}
    (redeems : Redeems env s (.redeem code r) code r) (kind : code.action = .activate user domain)
    (alters : Alters env s (.redeem code r) t) (codes : ∀ sent, Out t sent → Out s sent) :
    Transition env s (.redeem code r) (finalize env user domain r t) := by
  have quiet {u : Store Hash} (quiet : Quiet t u) : Transition env s (.redeem code r) u :=
    { alters.trans_keeps quiet fun _ _ => False.elim with
      codes := fun sent out => (quiet.codes sent out).imp (codes sent) Or.inl }
  cases domain with
  | none =>
    rw [finalize]
    split
    · exact alters.transition_issue (fun sent out => Or.inl (codes sent out)) _
    · exact quiet (Keeps.refl t)
  | some name =>
    rw [finalize]
    split
    · next unavailable =>
      have deleted := keeps_deleteUser user t
      exact { alters.trans_keeps deleted fun row _ own =>
          .unregistered code r redeems name (by rw [kind, own]) unavailable with
        codes := fun sent out => (deleted.codes sent out).imp (codes sent) Or.inl }
    · exact quiet (Keeps.refl t)
    · have created (isLocallyRegistrable : Bool) :
          Quiet t (createDomain env name user isLocallyRegistrable t) :=
        quiet_of_eq rfl (Nat.le_succ _) rfl rfl
      dsimp only
      split
      · exact quiet ((created _).trans (quiet_of_eq rfl (Nat.le_succ _) rfl rfl))
      · exact quiet (created _)

private theorem transition_redeem (keyed : Keyed User.id s.users) (out : Out s code) :
    Transition env s (.redeem code r) (redeem env code r s) := by
  rw [redeem]
  split
  · exact transition_refl s
  · next user found =>
    split
    · next passes =>
      simp only [Bool.and_eq_true, Bool.or_eq_true, Bool.not_eq_true', Bool.and_eq_false_iff,
        decide_eq_true_eq, decide_eq_false_iff_not] at passes
      obtain ⟨⟨⟨⟨⟨unexpired, unlocked⟩, active⟩, empty⟩, isValid⟩, valid⟩ := passes
      obtain ⟨there, isUser⟩ := mem_of_findUser found
      have unique {row : User} (member : row ∈ s.users) (own : row.id = code.action.user) :
          row = user := keyed row member user there (own.trans isUser.symm)
      have redeems : Redeems env s (.redeem code r) code r := ⟨rfl, out, unexpired, valid⟩
      have admitted : Admitted env s code r := by
        refine ⟨redeems, ?_, ?_, ?_, ?_⟩
        · intro row member own
          rw [unique member own]
          exact unlocked
        · intro other row member own
          rw [unique member own]
          exact active.resolve_left (by simp [other])
        · intro target newEmail kind
          rw [kind] at isValid
          simp only [Operations.isValid, Bool.and_eq_true, decide_eq_true_eq] at isValid
          exact isValid.1
        · intro target kind
          rw [kind, show target = user.id from (isUser.trans (by rw [kind]; rfl)).symm] at empty
          simpa [kind, isUser, Action.user] using empty
      have alters := alters_act admitted
      have codes (sent : Code Hash) (out : Out (act env code.action r s).1 sent) : Out s sent :=
        codes_act code.action sent out
      rw [perform]
      split
      · next t raised =>
        rw [raised] at alters codes
        exact { alters with codes := fun sent out => Or.inl (codes sent out) }
      · next t done =>
        rw [done] at alters codes
        have noted : Quiet t { t with redeemed := t.redeemed ++ [code] } :=
          quiet_of_eq rfl le_rfl rfl rfl
        have altered := alters.trans_keeps noted fun _ _ => False.elim
        dsimp only
        split
        · next target domain kind => exact transition_finalize redeems kind altered codes
        · exact { altered with codes := fun sent out => Or.inl (codes sent out) }
    · exact transition_refl s

end Redemptions

section Commands

variable {Hash : Type} [DecidableEq Hash] {env : Environment Hash}

/-- Domains that are there have had their owners before. -/
def Owned (s t : Store Hash) : Prop :=
  ∀ domain ∈ t.domains, ∃ old ∈ s.domains, old.owner = domain.owner

omit [DecidableEq Hash] in
private theorem domains_issue (action : Action) (s : Store Hash) :
    (issue env action s).domains = s.domains := by
  rw [issue]
  split <;> rfl

omit [DecidableEq Hash] in
private theorem owned_warnDomainDeletion (renewalState : RenewalState) (inactiveDays : Nat)
    (s : Store Hash) : Owned s (warnDomainDeletion env renewalState inactiveDays s) := by
  rw [warnDomainDeletion]
  generalize s.domains.filter _ = candidates
  have first : Owned s s.tick := fun domain member => ⟨domain, member, rfl⟩
  generalize s.tick = t at first ⊢
  induction candidates generalizing t with
  | nil => exact first
  | cons candidate candidates ih =>
    refine ih _ fun domain member => ?_
    have stamped : domain ∈ (issue env _ (stampDomain env candidate.id _ t)).domains := member
    rw [domains_issue] at stamped
    obtain ⟨old, there, rfl⟩ := List.mem_map.mp stamped
    obtain ⟨oldest, present, same⟩ := first old there
    refine ⟨oldest, present, same.trans ?_⟩
    split <;> rfl

omit [DecidableEq Hash] in
private theorem keeps_scavenge (s : Store Hash) :
    Keeps (fun id => ∃ domain ∈ s.domains, domain.owner = id) s (scavenge env s) := by
  have renewed : Quiet s (renewTouchedDomains env s) := quiet_of_eq rfl le_rfl rfl rfl
  have renewedOwned : Owned s (renewTouchedDomains env s) := by
    intro domain member
    obtain ⟨old, there, rfl⟩ := List.mem_map.mp member
    refine ⟨old, there, ?_⟩
    split <;> rfl
  rw [scavenge]
  have notified : Quiet _ (warnDomainDeletion env .fresh _ _) :=
    quiet_warnDomainDeletion .fresh Domains.Scavenge.freshDays (renewTouchedDomains env s)
  have notifiedOwned : Owned _ (warnDomainDeletion env .fresh _ _) :=
    owned_warnDomainDeletion .fresh Domains.Scavenge.freshDays (renewTouchedDomains env s)
  generalize warnDomainDeletion env .fresh _ _ = t at notified notifiedOwned ⊢
  have warned : Quiet _ (warnDomainDeletion env .notified _ _) := quiet_warnDomainDeletion .notified
    (Domains.Scavenge.noticeDaysNotify - Domains.Scavenge.noticeDaysWarn) t
  have warnedOwned : Owned _ (warnDomainDeletion env .notified _ _) :=
    owned_warnDomainDeletion .notified
      (Domains.Scavenge.noticeDaysNotify - Domains.Scavenge.noticeDaysWarn) t
  generalize warnDomainDeletion env .notified _ _ = u at warned warnedOwned ⊢
  have owned : Owned s u := by
    intro domain member
    obtain ⟨mid, there, same⟩ := warnedOwned domain member
    obtain ⟨earlier, present, again⟩ := notifiedOwned mid there
    obtain ⟨old, first, still⟩ := renewedOwned earlier present
    exact ⟨old, first, still.trans (again.trans same)⟩
  refine (((renewed.trans notified).trans warned).weaken fun _ => False.elim).trans ?_
  rw [deleteDomains]
  have ticked : Quiet u u.tick := quiet_of_eq rfl le_rfl rfl rfl
  refine (ticked.weaken fun _ => False.elim).trans ?_
  have inside : ∀ domain ∈ u.domains.filter (Domains.Scavenge.expired u.active (u.now env)
      (Domains.Scavenge.freshDays + Domains.Scavenge.noticeDaysNotify)),
      ∃ old ∈ s.domains, old.owner = domain.owner :=
    fun domain member => owned domain (List.mem_of_mem_filter member)
  generalize u.domains.filter _ = expired at inside ⊢
  generalize u.tick = v
  induction expired generalizing v with
  | nil => exact Keeps.refl v
  | cons domain expired ih =>
    have cleared : Quiet v (deleteDomain domain.id v) := quiet_of_eq rfl le_rfl rfl rfl
    have deleted := (keeps_deleteUser domain.owner (deleteDomain domain.id v)).weaken
      fun id own => own ▸ inside domain List.mem_cons_self
    refine ((cleared.weaken fun _ => False.elim).trans deleted).trans
      (ih (fun other member => ?_) _)
    exact inside other (List.mem_cons_of_mem _ member)

private theorem transition_outreachEmail (reason : Reason) (emails : List Text) {s : Store Hash}
    {operation : Operation Hash} :
    Transition env s operation (outreachEmail env reason emails s) := by
  rw [outreachEmail]
  generalize s.users.filter _ = users
  suffices mailed : ∀ t : Store Hash, t.users = s.users → t.nextId = s.nextId →
      (∀ code, Out t code → Out s code ∨ code.action.isUserAction = false ∨ Fits env s code) →
      Transition env s operation
        (users.foldl (fun s user => mail env (reason.action user.id) s) t) from
    mailed s rfl rfl fun code out => Or.inl out
  induction users with
  | nil =>
    intro t same nextId codes
    refine { nextId := nextId.ge, users := ?_, stay := ?_, codes := ?_ }
    · rw [List.foldl_nil, same]
      exact fun user member => Or.inl ⟨user, member, rfl, .same (Same.refl user)⟩
    · rw [List.foldl_nil, same]
      exact fun user member => Or.inr ⟨user, member, rfl⟩
    · intro code out
      rw [List.foldl_nil, Fits, same]
      exact codes code out
  | cons user users ih =>
    intro t same nextId codes
    rw [List.foldl_cons]
    rw [mail]
    split
    · next hash computed =>
      refine ih _ same nextId fun code out => ?_
      rcases out with issued | mailed
      · exact codes code (Or.inl issued)
      · rcases List.mem_append.mp mailed with old | new
        · exact codes code (Or.inr old)
        · rw [List.mem_singleton.mp new]
          cases kind : (reason.action user.id).isUserAction with
          | false => exact Or.inr (Or.inl rfl)
          | true =>
            have fits := fits_of_state computed kind
            rw [Fits, same] at fits
            exact Or.inr (Or.inr fits)
    · exact ih t same nextId codes

end Commands

section Steps

variable {Hash : Type} [DecidableEq Hash] {env : Environment Hash}

private theorem transition_ite {s t : Store Hash} {operation : Operation Hash} {condition : Prop}
    [Decidable condition] (done : Transition env s operation t) :
    Transition env s operation (if condition then t else s) := by
  split
  · exact done
  · exact transition_refl s

omit [DecidableEq Hash] in
private theorem quiet_login (user : Nat) (s : Store Hash) : Quiet s (login env user s) := by
  refine Keeps.trans ?_ (quiet_saveUser user _ fun row => ?_)
  · exact quiet_of_eq rfl (Nat.le_succ _) rfl rfl
  · exact ⟨rfl, rfl, rfl, rfl⟩

/-- Accounts come, change and go by certain operations only, and codes for them fit. -/
theorem transition_step {s : Store Hash} (keyed : Keyed User.id s.users)
    (operation : Operation Hash) : Transition env s operation (step env s operation) := by
  have unchanged {t : Store Hash} (users : t.users = s.users) (nextId : s.nextId ≤ t.nextId)
      (issued : t.issued = s.issued) (mailed : t.mailed = s.mailed) :
      Transition env s operation t :=
    transition_of_quiet (quiet_of_eq users nextId issued mailed)
  cases operation with
  | register email password captcha outreachPreference domain =>
    rw [step, register]
    split
    · exact transition_refl s
    · exact transition_issue (quiet_createUser s) _
  | login user => exact transition_ite (transition_of_quiet (quiet_login user s))
  | useToken token => exact unchanged rfl le_rfl rfl rfl
  | updateAccount user outreachPreference =>
    exact transition_ite (transition_of_quiet (quiet_saveUser user s fun row =>
      ⟨rfl, rfl, rfl, rfl⟩))
  | requestDeletion user =>
    refine transition_ite ?_
    rw [requestDeletion]
    split
    · exact transition_refl s
    · exact transition_issue (Keeps.refl s) _
  | requestEmailChange user newEmail =>
    refine transition_ite ?_
    rw [requestEmailChange]
    split
    · exact transition_refl s
    · exact transition_issue (Keeps.refl s) _
  | requestPasswordReset email =>
    rw [step, requestPasswordReset]
    split
    · exact transition_ite (transition_issue (Keeps.refl s) _)
    · exact transition_refl s
  | requestFactor user name =>
    refine transition_ite ?_
    rw [requestFactor]
    split
    · exact transition_refl s
    · split
      · exact transition_of_quiet (keeps_getD fun t created => quiet_createFactor created)
      · exact transition_issue (Keeps.refl s) _
  | renameFactor factor name =>
    refine transition_of_quiet (keeps_getD fun t renamed => ?_)
    obtain ⟨row, -, saved⟩ := Option.bind_eq_some_iff.mp renamed
    exact quiet_saveFactor saved
  | destroyFactor factor =>
    rw [step, destroyFactor]
    split
    · next row found =>
      rw [deleteFactor]
      have changed : Quiet s (changeCredentials env row.user id s) :=
        quiet_changeCredentials row.user s Same.refl
      split
      · exact transition_of_quiet (changed.trans (quiet_of_eq rfl le_rfl rfl rfl))
      · exact unchanged rfl le_rfl rfl rfl
    · exact transition_refl s
  | verifyFactor factor code auth policiesAdmit =>
    exact transition_of_quiet (quiet_verifyFactor factor code auth policiesAdmit s)
  | createToken owner name permCreateDomain permDeleteDomain permManageTokens autoPolicy maxAge
      maxUnusedPeriod userOverride =>
    refine transition_ite ?_
    have inserted : Quiet s (insertToken env owner name none permCreateDomain permDeleteDomain
        permManageTokens autoPolicy maxAge maxUnusedPeriod s) :=
      quiet_of_eq rfl (Nat.le_succ _) rfl rfl
    cases userOverride with
    | none => exact transition_of_quiet inserted
    | some email =>
      unfold createToken
      dsimp only
      split
      · exact transition_of_quiet inserted
      · exact transition_issue (inserted.trans (quiet_createUser _)) _
  | updateToken token name permCreateDomain permDeleteDomain permManageTokens autoPolicy maxAge
      maxUnusedPeriod policiesAdmit =>
    refine transition_of_quiet (keeps_getD fun t done => ?_)
    obtain ⟨row, -, saved⟩ := Option.bind_eq_some_iff.mp done
    exact quiet_saveToken saved
  | removeToken token => exact unchanged rfl le_rfl rfl rfl
  | createDomain name owner isLocallyRegistrable =>
    exact transition_ite (unchanged rfl (Nat.le_succ _) rfl rfl)
  | deleteDomain domain => exact unchanged rfl le_rfl rfl rfl
  | writeRRset domain replaced => exact unchanged rfl le_rfl rfl rfl
  | deleteRRset domain touched => exact unchanged rfl le_rfl rfl rfl
  | publish domain => exact unchanged rfl le_rfl rfl rfl
  | redeem code redemption =>
    rw [step]
    split
    · next out => exact transition_redeem keyed out
    · exact transition_refl s
  | chores =>
    rw [step, deleteNeverActivatedUsers]
    have ticked : Quiet s s.tick := quiet_of_eq rfl le_rfl rfl rfl
    dsimp only
    split
    · exact transition_of_quiet ticked
    · refine transition_of_keeps ((ticked.weaken fun _ => False.elim).trans
        (keeps_removeUsers _ s.tick)) fun before member goes => ?_
      simp only [List.any_eq_true, Bool.and_eq_true, decide_eq_true_eq,
        Option.isNone_iff_eq_none] at goes
      obtain ⟨row, there, ⟨⟨own, pending⟩, -⟩, late⟩ := goes
      obtain rfl := keyed row there before member own
      exact .neverActivated rfl pending late
  | stopAbuse names =>
    refine { nextId := le_rfl, users := ?_, stay := ?_, codes := fun code out => Or.inl out }
    · intro after member
      obtain ⟨before, there, rfl⟩ := List.mem_map.mp member
      refine Or.inl ⟨before, there, ?_⟩
      split
      · exact ⟨rfl, .locked names rfl rfl rfl rfl⟩
      · exact ⟨rfl, .same (Same.refl before)⟩
    · intro before member
      refine Or.inr ⟨_, List.mem_map_of_mem member, ?_⟩
      split <;> rfl
  | scavenge =>
    refine transition_of_keeps (keeps_scavenge s) fun before member goes => ?_
    obtain ⟨domain, there, owned⟩ := goes
    exact .scavenged rfl domain there owned
  | outreachEmail reason emails => exact transition_outreachEmail reason emails

end Steps

end DesecStack.Accounts.Lifecycle
