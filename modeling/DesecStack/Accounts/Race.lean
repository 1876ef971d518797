/- module: DesecStack/Accounts/Race
   source: api/desecapi/authentication.py, api/desecapi/models/users.py,
     api/desecapi/models/authenticated_actions.py, api/desecapi/views/authenticated_actions.py
   digest: Two redemptions of codes of one user, interleaved at their accesses to the user's row. -/

import DesecStack.Library.PyText
import DesecStack.Library.Runs
import Mathlib.Logic.Function.Basic

set_option autoImplicit false
set_option relaxedAutoImplicit false

namespace DesecStack.Accounts.Race

open Library.PyText (Text)
open Library.Runs (Along along_of_along)

/-- The columns of a `User` that the redemption of a code reads or changes. `password` is the
stored hash. -/
structure UserRow where
  email : Text
  emailVerified : Option Nat
  isActive : Option Bool
  needsCaptcha : Bool
  password : Text
  credentialsChanged : Nat
  outreachPreference : Bool
  deriving DecidableEq

inductive Action where
  | changeOutreachPreference (outreachPreference : Bool)
  | activate (withDomain : Bool)
  | activateWithOverrideToken (outreachPreference : Bool)
  | changeEmail (newEmail : Text)
  | confirmAccount
  | createTotp
  | resetPassword (newPassword : Text)
  | deleteAccount
  | renewDomain

/-- What a code says about the user: the time it was issued, and the values that its state
covers. -/
structure Code where
  timestamp : Nat
  email : Text
  credentialsChanged : Nat
  isActive : Option Bool

/-- `validate_state`, as far as the user is concerned. -/
def Action.validateState (action : Action) (code : Code) (user : UserRow) : Bool :=
  match action with
  | .changeOutreachPreference _ => code.email = user.email
  | .confirmAccount | .renewDomain => true
  | _ => code.credentialsChanged = user.credentialsChanged && code.isActive = user.isActive

/-- The permission `IsActiveUser`, where the view has it. -/
def Action.permitted (action : Action) (user : UserRow) : Bool :=
  match action with
  | .activate _ | .activateWithOverrideToken _ => true
  | _ => user.isActive = some true

/-- How far a request has come, with the copy of the row that it holds and the time of the load.
A request that is `activated` has yet to create the domain. -/
inductive Phase where
  | waiting
  | authenticating (copy : UserRow) (loaded : Nat)
  | authenticated
  | validated (copy : UserRow) (loaded : Nat)
  | activated
  | succeeded (acted : Nat)
  | failed

structure Request where
  action : Action
  code : Code
  phase : Phase

/-- What becomes of a step: it goes on, or it ends in an exception. A domain may also turn out
to be unavailable. -/
inductive Result where
  | goesOn
  | raises
  | unavailable
  deriving DecidableEq

/-- `user.email_verified = max(..)` of `authenticate_credentials` -/
def UserRow.verified (user : UserRow) (timestamp : Nat) : UserRow :=
  { user with emailVerified := some (max (user.emailVerified.getD timestamp) timestamp) }

/-- `_act` on the row: none of it, a copy saved whole, or the row deleted. -/
def Action.act (action : Action) (mfaEnabled : Bool) (now : Nat) (copy : UserRow)
    (row : Option UserRow) : Option UserRow :=
  match action with
  | .changeOutreachPreference outreachPreference => some { copy with outreachPreference }
  | .activate _ => some { copy with isActive := some true, needsCaptcha := false }
  | .activateWithOverrideToken outreachPreference =>
    some { copy with outreachPreference, isActive := some true, needsCaptcha := false }
  | .changeEmail newEmail => some { copy with email := newEmail, credentialsChanged := now }
  | .createTotp => if mfaEnabled then row else some { copy with credentialsChanged := now }
  | .resetPassword newPassword =>
    some { copy with password := newPassword, credentialsChanged := now }
  | .deleteAccount => none
  | .confirmAccount | .renewDomain => row

/-- The next access of a request to the row of the user. A save writes all columns, and inserts
the row if it is not there. -/
def Request.advance (r : Request) (mfaEnabled : Bool) (result : Result) (now : Nat)
    (row : Option UserRow) : Option UserRow × Phase :=
  match r.phase with
  | .activated =>
    match result with
    | .goesOn => (row, .succeeded now)
    | .raises => (row, .failed)
    | .unavailable => (none, .failed)
  | .succeeded acted => (row, .succeeded acted)
  | .failed => (row, .failed)
  | phase =>
    if result ≠ .goesOn then (row, .failed)
    else
      match phase, row with
      | .waiting, some user => (row, .authenticating user now)
      | .authenticating copy _, _ =>
        (some (copy.verified r.code.timestamp),
          if copy.isActive = some false then .failed
          else if r.action.permitted copy then .authenticated else .failed)
      | .authenticated, some user =>
        (row, if r.action.validateState r.code user then .validated user now else .failed)
      | .validated copy _, _ =>
        (r.action.act mfaEnabled now copy row,
          match r.action with
          | .activate true => .activated
          | _ => .succeeded now)
      | _, _ => (row, .failed)

/-- The row of the user, the two requests, and the time. -/
structure State where
  row : Option UserRow
  requests : Bool → Request
  clock : Nat

/-- A request makes its next access, later than all before. -/
structure Event where
  request : Bool
  now : Nat
  mfaEnabled : Bool
  result : Result

def step (s : State) (e : Event) : Option State :=
  let r := s.requests e.request
  let (row, phase) := r.advance e.mfaEnabled e.result e.now s.row
  if s.clock < e.now then
    some ⟨row, Function.update s.requests e.request { r with phase }, e.now⟩
  else none

/-- The redemptions that change a password or an email address. -/
def Action.changesCredential : Action → Bool
  | .resetPassword _ | .changeEmail _ => true
  | _ => false

/-- Two changes of the same field. -/
def Action.sameField : Action → Action → Bool
  | .resetPassword _, .resetPassword _ => true
  | .changeEmail _, .changeEmail _ => true
  | _, _ => false

/-- Whether `_act` saves the user, as `BaseFactor.save` does when it enables MFA. -/
def Action.saves (mfaEnabled : Bool) : Action → Bool
  | .createTotp => !mfaEnabled
  | .deleteAccount | .confirmAccount | .renewDomain => false
  | _ => true

/-- The actions that set `credentials_changed`. -/
def Action.setsCredentialsChanged : Action → Bool
  | .resetPassword _ | .changeEmail _ | .createTotp => true
  | _ => false

/-- The row has what a credential change has written. -/
def Has (change : Action) (acted : Nat) (row : UserRow) : Prop :=
  match change with
  | .resetPassword newPassword => row.password = newPassword ∧ row.credentialsChanged = acted
  | .changeEmail newEmail => row.email = newEmail ∧ row.credentialsChanged = acted
  | _ => True

/-- The request has succeeded later than that. -/
def Request.succeededAt (r : Request) (acted later : Nat) : Prop :=
  r.phase = .succeeded later ∧ acted < later

/-- `credentials_changed` is what a change has written, or what the other request has written
there later. -/
def KeepsCredentialsChanged (acted : Nat) (other : Request) (row : UserRow) : Prop :=
  row.credentialsChanged = acted ∨ ∃ later, other.succeededAt acted later ∧
    other.action.setsCredentialsChanged = true ∧ row.credentialsChanged = later

/-- The row has what a credential change has written, up to later changes of the same field that
the other request has redeemed. -/
def Keeps (change : Action) (acted : Nat) (other : Request) (row : UserRow) : Prop :=
  match change with
  | .resetPassword newPassword =>
    (row.password = newPassword ∨ ∃ later password, other.succeededAt acted later ∧
      other.action = .resetPassword password ∧ row.password = password) ∧
    KeepsCredentialsChanged acted other row
  | .changeEmail newEmail =>
    (row.email = newEmail ∨ ∃ later email, other.succeededAt acted later ∧
      other.action = .changeEmail email ∧ row.email = email) ∧
    KeepsCredentialsChanged acted other row
  | _ => True

/-- The credential change of a request, once it has succeeded, is not undone. -/
def Kept (s : State) (request : Bool) : Prop :=
  ∀ acted row, (s.requests request).phase = .succeeded acted → s.row = some row →
    Keeps (s.requests request).action acted (s.requests !request) row

/-- Where a request saves its copy of the row after the other one has changed a credential, it has
loaded the copy after that, or it changes the same field itself. -/
def SavesFresh (s : State) (e : Event) : Prop :=
  ∀ acted, (s.requests !e.request).phase = .succeeded acted →
    (s.requests !e.request).action.changesCredential = true → e.result = .goesOn →
    (∀ copy loaded, (s.requests e.request).phase = .authenticating copy loaded →
      acted < loaded) ∧
    (∀ copy loaded, (s.requests e.request).phase = .validated copy loaded →
      (s.requests e.request).action.saves e.mfaEnabled = true →
      acted < loaded ∨
        (s.requests !e.request).action.sameField (s.requests e.request).action = true)

section Steps

variable {change : Action} {acted : Nat} {other : Request} {row : UserRow}

private theorem keeps_of_has (has : Has change acted row) : Keeps change acted other row := by
  cases change with
  | resetPassword => exact ⟨.inl has.1, .inl has.2⟩
  | changeEmail => exact ⟨.inl has.1, .inl has.2⟩
  | _ => trivial

private theorem has_of_keeps (pending : ∀ later, other.phase ≠ .succeeded later)
    (keeps : Keeps change acted other row) : Has change acted row := by
  cases change with
  | resetPassword =>
    obtain ⟨field | ⟨later, _, done, _⟩, changed | ⟨later, done, _⟩⟩ := keeps
    · exact ⟨field, changed⟩
    · exact absurd done.1 (pending later)
    · exact absurd done.1 (pending later)
    · exact absurd done.1 (pending later)
  | changeEmail =>
    obtain ⟨field | ⟨later, _, done, _⟩, changed | ⟨later, done, _⟩⟩ := keeps
    · exact ⟨field, changed⟩
    · exact absurd done.1 (pending later)
    · exact absurd done.1 (pending later)
    · exact absurd done.1 (pending later)
  | _ => trivial

private theorem keeps_of_keeps {after : Request} (same : after.action = other.action)
    (stays : ∀ later, other.phase = .succeeded later → after.phase = .succeeded later)
    (keeps : Keeps change acted other row) : Keeps change acted after row := by
  have changed : KeepsCredentialsChanged acted other row →
      KeepsCredentialsChanged acted after row := by
    rintro (kept | ⟨later, ⟨done, after⟩, sets, written⟩)
    · exact .inl kept
    · exact .inr ⟨later, ⟨stays later done, after⟩, same ▸ sets, written⟩
  cases change with
  | resetPassword =>
    refine ⟨?_, changed keeps.2⟩
    rcases keeps.1 with kept | ⟨later, password, ⟨done, after⟩, action, written⟩
    · exact .inl kept
    · exact .inr ⟨later, password, ⟨stays later done, after⟩, same.trans action, written⟩
  | changeEmail =>
    refine ⟨?_, changed keeps.2⟩
    rcases keeps.1 with kept | ⟨later, email, ⟨done, after⟩, action, written⟩
    · exact .inl kept
    · exact .inr ⟨later, email, ⟨stays later done, after⟩, same.trans action, written⟩
  | _ => trivial

private theorem changesCredential_of_not_keeps (undone : ¬ Keeps change acted other row) :
    change.changesCredential = true := by
  cases change with
  | resetPassword => rfl
  | changeEmail => rfl
  | _ => exact absurd trivial undone

private theorem has_verified (has : Has change acted row) (timestamp : Nat) :
    Has change acted (row.verified timestamp) := by
  cases change <;> exact has

def Action.newPassword : Action → Option Text
  | .resetPassword newPassword => some newPassword
  | _ => none

def Action.newEmail : Action → Option Text
  | .changeEmail newEmail => some newEmail
  | _ => none

private theorem sets_of_sameField {action : Action} (same : change.sameField action = true) :
    action.setsCredentialsChanged = true := by
  cases change <;> cases action <;> first | rfl | cases same

private theorem act_cases {action : Action} {mfaEnabled : Bool} {now : Nat} {copy : UserRow}
    {before : Option UserRow} (saved : action.act mfaEnabled now copy before = some row) :
    (action.saves mfaEnabled = false ∧ before = some row) ∨
    (action.saves mfaEnabled = true ∧ row.password = action.newPassword.getD copy.password ∧
      row.email = action.newEmail.getD copy.email ∧
      row.credentialsChanged =
        if action.setsCredentialsChanged then now else copy.credentialsChanged) := by
  cases action with
  | createTotp =>
    cases mfaEnabled with
    | true => exact .inl ⟨rfl, saved⟩
    | false =>
      right
      obtain rfl := Option.some.inj saved
      exact ⟨rfl, rfl, rfl, rfl⟩
  | deleteAccount => cases saved
  | confirmAccount => exact .inl ⟨rfl, saved⟩
  | renewDomain => exact .inl ⟨rfl, saved⟩
  | _ =>
    right
    obtain rfl := Option.some.inj saved
    exact ⟨rfl, rfl, rfl, rfl⟩

private theorem keeps_act {mfaEnabled : Bool} {now : Nat} {copy : UserRow} {before : Option UserRow}
    (later : acted < now) (kept : ∀ user, before = some user → Has change acted user)
    (fresh : other.action.saves mfaEnabled = true →
      Has change acted copy ∨ change.sameField other.action = true)
    (done : other.action.setsCredentialsChanged = true → other.phase = .succeeded now)
    (saved : other.action.act mfaEnabled now copy before = some row) :
    Keeps change acted other row := by
  rcases act_cases saved with ⟨_, same⟩ | ⟨saves, password, email, changed⟩
  · exact keeps_of_has (kept row same)
  · have stamp : change.changesCredential = true → KeepsCredentialsChanged acted other row := by
      intro credential
      cases sets : other.action.setsCredentialsChanged with
      | true =>
        rw [sets, if_pos rfl] at changed
        exact .inr ⟨now, ⟨done sets, later⟩, sets, changed⟩
      | false =>
        rw [sets] at changed
        rcases fresh saves with has | same
        · cases change with
          | resetPassword => exact .inl (changed.trans has.2)
          | changeEmail => exact .inl (changed.trans has.2)
          | _ => cases credential
        · rw [sets_of_sameField same] at sets
          cases sets
    cases change with
    | resetPassword newPassword =>
      refine ⟨?_, stamp rfl⟩
      cases action : other.action with
      | resetPassword other' =>
        rw [action] at password
        exact .inr ⟨now, other', ⟨done (by rw [action]; rfl), later⟩, rfl, password⟩
      | _ =>
        rw [action] at password fresh saves
        rcases fresh saves with has | same
        · exact .inl (password.trans has.1)
        · cases same
    | changeEmail newEmail =>
      refine ⟨?_, stamp rfl⟩
      cases action : other.action with
      | changeEmail other' =>
        rw [action] at email
        exact .inr ⟨now, other', ⟨done (by rw [action]; rfl), later⟩, rfl, email⟩
      | _ =>
        rw [action] at email fresh saves
        rcases fresh saves with has | same
        · exact .inl (email.trans has.1)
        · cases same
    | _ => trivial

end Steps

section Runs

variable {s s' : State} {e : Event} {who : Bool}

/-- The copy that a request holds, and the time that it was loaded. -/
def Phase.holds : Phase → Option (UserRow × Nat)
  | .authenticating copy loaded => some (copy, loaded)
  | .validated copy loaded => some (copy, loaded)
  | _ => none

/-- Everything that an access of a request can do to the row and to its phase. -/
inductive Advance (r : Request) (mfaEnabled : Bool) (result : Result) (now : Nat)
    (row : Option UserRow) : Option UserRow → Phase → Prop
  | idle {phase : Phase} (empty : phase.holds = none) (fresh : phase ≠ .activated)
      (done : ∀ acted, phase = .succeeded acted →
        r.phase = .succeeded acted ∨ (r.phase = .activated ∧ acted = now))
      (stays : ∀ acted, r.phase = .succeeded acted → phase = .succeeded acted) :
      Advance r mfaEnabled result now row row phase
  | load {user : UserRow} {phase : Phase} (there : row = some user)
      (holds : phase.holds = some (user, now)) (pending : ∀ acted, r.phase ≠ .succeeded acted) :
      Advance r mfaEnabled result now row row phase
  | save {copy : UserRow} {loaded : Nat} {phase : Phase} (goesOn : result = .goesOn)
      (held : r.phase = .authenticating copy loaded) (empty : phase.holds = none)
      (fresh : phase ≠ .activated) (pending : ∀ acted, phase ≠ .succeeded acted) :
      Advance r mfaEnabled result now row (some (copy.verified r.code.timestamp)) phase
  | act {copy : UserRow} {loaded : Nat} {phase : Phase} {after : Option UserRow}
      (goesOn : result = .goesOn) (held : r.phase = .validated copy loaded)
      (saved : r.action.act mfaEnabled now copy row = after)
      (done : phase = .succeeded now ∨ (phase = .activated ∧ r.action = .activate true)) :
      Advance r mfaEnabled result now row after phase
  | remove : Advance r mfaEnabled result now row none .failed

private theorem advance_advance (r : Request) (mfaEnabled : Bool) (result : Result) (now : Nat)
    (row : Option UserRow) : Advance r mfaEnabled result now row
      (r.advance mfaEnabled result now row).1 (r.advance mfaEnabled result now row).2 := by
  obtain ⟨action, code, phase⟩ := r
  cases phase with
  | activated =>
    cases result with
    | goesOn =>
      refine .idle rfl nofun (fun acted same => .inr ⟨rfl, ?_⟩) nofun
      cases same
      rfl
    | raises => exact .idle rfl nofun nofun nofun
    | unavailable => exact .remove
  | succeeded acted => exact .idle rfl nofun (fun _ same => .inl same) fun _ same => same
  | failed => exact .idle rfl nofun nofun nofun
  | waiting =>
    cases result with
    | goesOn =>
      cases row with
      | none => exact .idle rfl nofun nofun nofun
      | some user => exact .load rfl rfl nofun
    | _ => exact .idle rfl nofun nofun nofun
  | authenticating copy loaded =>
    cases result with
    | goesOn =>
      show Advance _ _ _ _ _ (some _) (if _ then _ else if _ then _ else _)
      split
      · exact .save rfl rfl rfl nofun nofun
      · split
        · exact .save rfl rfl rfl nofun nofun
        · exact .save rfl rfl rfl nofun nofun
    | _ => exact .idle rfl nofun nofun nofun
  | authenticated =>
    cases result with
    | goesOn =>
      cases row with
      | none => exact .idle rfl nofun nofun nofun
      | some user =>
        show Advance _ _ _ _ _ (some user) (if action.validateState code user = true then _ else _)
        split
        · exact .load rfl rfl nofun
        · exact .idle rfl nofun nofun nofun
    | _ => exact .idle rfl nofun nofun nofun
  | validated copy loaded =>
    cases result with
    | goesOn =>
      refine .act rfl rfl rfl ?_
      cases action with
      | activate withDomain =>
        cases withDomain with
        | true => exact .inr ⟨rfl, rfl⟩
        | false => exact .inl rfl
      | _ => exact .inl rfl
    | _ => exact .idle rfl nofun nofun nofun

/-- A run that keeps the change of a request: loads and successes are in the past, and what the
other request has loaded since the change has it. -/
structure Keeping (s : State) (who : Bool) : Prop where
  loads : ∀ copy loaded, (s.requests !who).phase.holds = some (copy, loaded) → loaded ≤ s.clock
  acted : ∀ acted, (s.requests who).phase = .succeeded acted → acted ≤ s.clock
  kept : Kept s who
  activated : (s.requests who).phase = .activated → (s.requests who).action = .activate true
  copies : ∀ acted copy loaded, (s.requests who).phase = .succeeded acted →
    (s.requests !who).phase.holds = some (copy, loaded) → acted < loaded →
    Has (s.requests who).action acted copy

private theorem has_act {action : Action} {mfaEnabled : Bool} {now : Nat} {copy row : UserRow}
    {before : Option UserRow} (saved : action.act mfaEnabled now copy before = some row) :
    Has action now row := by
  cases action with
  | resetPassword =>
    obtain rfl := Option.some.inj saved
    exact ⟨rfl, rfl⟩
  | changeEmail =>
    obtain rfl := Option.some.inj saved
    exact ⟨rfl, rfl⟩
  | _ => trivial

/-- What a step does to the request that makes it. -/
structure Stepped (s s' : State) (e : Event) (request : Bool) : Prop where
  later : s.clock < e.now
  clock : s'.clock = e.now
  action : (s'.requests request).action = (s.requests request).action
  source : Advance (s.requests request) e.mfaEnabled e.result e.now s.row s'.row
    (s'.requests request).phase
  other : s'.requests (!request) = s.requests !request

private theorem stepped_of_step (taken : step s e = some s') : Stepped s s' e e.request := by
  rw [step, Option.ite_none_right_eq_some, Option.some.injEq] at taken
  obtain ⟨later, rfl⟩ := taken
  refine ⟨later, rfl, ?_, ?_, Function.update_of_ne ?_ ..⟩
  · simp only [Function.update_self]
  · simp only [Function.update_self]
    exact advance_advance ..
  · cases e.request <;> decide

private theorem Stepped.succeeded (stepped : Stepped s s' e who) {acted : Nat}
    (done : (s'.requests who).phase = .succeeded acted) :
    (s'.row = s.row ∧ (s.requests who).phase = .succeeded acted) ∨
    (acted = e.now ∧ s'.row = s.row ∧ (s.requests who).phase = .activated) ∨
    (acted = e.now ∧ ∃ copy,
      s'.row = (s.requests who).action.act e.mfaEnabled e.now copy s.row) := by
  have source := stepped.source
  generalize (s'.requests who).phase = phase at source done
  generalize s'.row = row at source
  subst done
  cases source with
  | idle _ _ before _ =>
    rcases before acted rfl with done | ⟨activated, now⟩
    · exact .inl ⟨rfl, done⟩
    · exact .inr (.inl ⟨now, rfl, activated⟩)
  | load _ holds _ => cases holds
  | save _ _ _ _ pending => exact absurd rfl (pending acted)
  | act _ _ saved done =>
    rcases done with same | ⟨never, _⟩
    · cases same
      exact .inr (.inr ⟨rfl, _, saved.symm⟩)
    · cases never

private theorem Stepped.activated (stepped : Stepped s s' e who)
    (activated : (s'.requests who).phase = .activated) :
    (s.requests who).action = .activate true := by
  have source := stepped.source
  generalize (s'.requests who).phase = phase at source activated
  generalize s'.row = row at source
  subst activated
  cases source with
  | idle _ fresh _ _ => exact absurd rfl fresh
  | load _ holds _ => cases holds
  | save _ _ _ fresh _ => exact absurd rfl fresh
  | act _ _ _ done =>
    rcases done with never | ⟨_, action⟩
    · cases never
    · exact action

private theorem keeping_own (keeping : Keeping s who) (stepped : Stepped s s' e who) :
    Keeping s' who := by
  have held : ∀ copy loaded, (s'.requests !who).phase.holds = some (copy, loaded) →
      loaded < e.now := by
    intro copy loaded holds
    rw [stepped.other] at holds
    exact (keeping.loads copy loaded holds).trans_lt stepped.later
  have past : ∀ acted, (s.requests who).phase = .succeeded acted → acted ≤ e.now :=
    fun acted done => (keeping.acted acted done).trans stepped.later.le
  refine ⟨?_, ?_, ?_, ?_, ?_⟩
  · intro copy loaded holds
    rw [stepped.clock]
    exact (held copy loaded holds).le
  · intro acted done
    rw [stepped.clock]
    rcases stepped.succeeded done with ⟨_, done⟩ | ⟨rfl, _⟩ | ⟨rfl, _⟩
    · exact past acted done
    · exact le_rfl
    · exact le_rfl
  · intro acted row done there
    rw [stepped.action, stepped.other]
    rcases stepped.succeeded done with ⟨same, done⟩ | ⟨rfl, _, activated⟩ | ⟨rfl, copy, saved⟩
    · exact keeping.kept acted row done (same ▸ there)
    · rw [keeping.activated activated]
      trivial
    · exact keeps_of_has (has_act (saved ▸ there))
  · intro activated
    rw [stepped.action]
    exact stepped.activated activated
  · intro acted copy loaded done holds after
    have before := held copy loaded holds
    rw [stepped.other] at holds
    rw [stepped.action]
    rcases stepped.succeeded done with ⟨_, done⟩ | ⟨rfl, _⟩ | ⟨rfl, _⟩
    · exact keeping.copies acted copy loaded done holds after
    · omega
    · omega

private theorem Keeping.has (keeping : Keeping s who) {acted : Nat} {row : UserRow}
    (done : (s.requests who).phase = .succeeded acted)
    (pending : ∀ later, (s.requests !who).phase ≠ .succeeded later) (there : s.row = some row) :
    Has (s.requests who).action acted row :=
  has_of_keeps pending (keeping.kept acted row done there)

private theorem kept_other (keeping : Keeping s who) (stepped : Stepped s s' e (!who))
    (same : s'.requests who = s.requests who) (mine : e.request = !who)
    (fresh : SavesFresh s e) : Kept s' who := by
  intro acted row done there
  rw [same] at done ⊢
  by_contra undone
  have credential := changesCredential_of_not_keeps undone
  have saves := fresh acted
  rw [mine, Bool.not_not] at saves
  have saves := saves done credential
  have action := stepped.action
  have source := stepped.source
  generalize s'.requests (!who) = after at action source undone
  generalize s'.row = last at source there
  subst there
  obtain ⟨action', code, phase⟩ := after
  simp only at action source
  subst action
  apply undone
  generalize old : s.row = before at source
  cases source with
  | idle _ _ _ stays =>
    refine keeps_of_keeps ?_ ?_ (keeping.kept acted row done old)
    · rfl
    · exact stays
  | load _ _ pending => exact keeps_of_has (keeping.has done pending old)
  | @save copy loaded _ goesOn held _ _ _ =>
    have later := (saves goesOn).1 copy loaded held
    have holds : (s.requests !who).phase.holds = some (copy, loaded) := by
      rw [held]
      rfl
    exact keeps_of_has (has_verified (keeping.copies acted copy loaded done holds later) _)
  | @act copy loaded _ _ goesOn held saved settled =>
    have pending : ∀ later, (s.requests !who).phase ≠ .succeeded later := by
      intro later never
      rw [held] at never
      cases never
    refine keeps_act ((keeping.acted acted done).trans_lt stepped.later)
      (fun user there => keeping.has done pending (old.trans there)) ?_ ?_ saved
    · intro saving
      rcases (saves goesOn).2 copy loaded held saving with later | field
      · have holds : (s.requests !who).phase.holds = some (copy, loaded) := by
          rw [held]
          rfl
        exact .inl (keeping.copies acted copy loaded done holds later)
      · exact .inr field
    · intro sets
      rcases settled with now | ⟨_, action⟩
      · exact now
      · rw [show (Request.mk (s.requests !who).action code phase).action = .activate true
          from action] at sets
        cases sets

private theorem keeping_other (keeping : Keeping s who) (stepped : Stepped s s' e (!who))
    (mine : e.request = !who) (fresh : SavesFresh s e) : Keeping s' who := by
  have same : s'.requests who = s.requests who := by
    have other := stepped.other
    rwa [Bool.not_not] at other
  have past : ∀ acted, (s.requests who).phase = .succeeded acted → acted ≤ s'.clock := by
    intro acted done
    rw [stepped.clock]
    exact (keeping.acted acted done).trans stepped.later.le
  -- A copy that is held afterwards was loaded just now.
  have loads : ∀ copy loaded, (s'.requests !who).phase.holds = some (copy, loaded) →
      loaded = e.now ∧ s.row = some copy ∧
        ∀ later, (s.requests !who).phase ≠ .succeeded later := by
    intro copy loaded holds
    have source := stepped.source
    generalize (s'.requests !who).phase = phase at source holds
    generalize s'.row = last at source
    generalize old : s.row = before at source
    cases source with
    | idle empty => rw [empty] at holds; cases holds
    | load there found pending =>
      obtain ⟨rfl, rfl⟩ := Prod.mk.inj (Option.some.inj (found.symm.trans holds))
      exact ⟨rfl, there, pending⟩
    | save _ _ empty => rw [empty] at holds; cases holds
    | act _ _ _ done =>
      rcases done with rfl | ⟨rfl, _⟩ <;> cases holds
    | remove => cases holds
  refine ⟨?_, ?_, kept_other keeping stepped same mine fresh, ?_, ?_⟩
  · intro copy loaded holds
    rw [stepped.clock, (loads copy loaded holds).1]
  · rw [same]
    exact past
  · rw [same]
    exact keeping.activated
  · intro acted copy loaded done holds _
    rw [same] at done ⊢
    obtain ⟨_, there, pending⟩ := loads copy loaded holds
    exact keeping.has done pending there

private theorem keeping_step (keeping : Keeping s who) (taken : step s e = some s')
    (fresh : SavesFresh s e) : Keeping s' who := by
  have stepped := stepped_of_step taken
  by_cases mine : e.request = who
  · rw [mine] at stepped
    exact keeping_own keeping stepped
  · have mine : e.request = !who := Bool.eq_not_of_ne mine
    rw [mine] at stepped
    exact keeping_other keeping stepped mine fresh

/-- As long as no request saves a copy that it has loaded before the other one's change, no
credential change is undone, in whatever order the two requests run. -/
theorem kept_along {start : State} {events : List Event}
    (waiting : ∀ request, (start.requests request).phase = .waiting)
    (fresh : Along step (fun s e _ => SavesFresh s e) start events) :
    Along step (fun _ _ s' => Kept s' true ∧ Kept s' false) start events := by
  have keeping : ∀ who, Keeping start who := by
    intro who
    refine ⟨?_, ?_, ?_, ?_, ?_⟩
    · intro copy loaded holds
      rw [waiting] at holds
      cases holds
    · intro acted done
      rw [waiting] at done
      cases done
    · intro acted row done
      rw [waiting] at done
      cases done
    · intro activated
      rw [waiting] at activated
      cases activated
    · intro acted copy loaded done
      rw [waiting] at done
      cases done
  refine along_of_along (I := fun s => Keeping s true ∧ Keeping s false) ?_
    ⟨keeping true, keeping false⟩ fresh
  intro s e s' before taken fresh
  have first := keeping_step before.1 taken fresh
  have second := keeping_step before.2 taken fresh
  exact ⟨⟨first.kept, second.kept⟩, first, second⟩

end Runs

section Examples

def user₀ : UserRow :=
  ⟨"a@example.com".toList, none, some true, false, "old".toList, 1, true⟩

/-- The user's two codes: one resets the password, the other one confirms the account. -/
def start₀ : State where
  row := some user₀
  requests
    | true => ⟨.resetPassword "new".toList, ⟨9, user₀.email, 1, some true⟩, .waiting⟩
    | false => ⟨.confirmAccount, ⟨8, user₀.email, 1, some true⟩, .waiting⟩
  clock := 10

def access (request : Bool) (now : Nat) : Event := ⟨request, now, false, .goesOn⟩

/-- The reset, and then the authentication of the other request. -/
def inTurn : List Event :=
  [access true 11, access true 12, access true 13, access true 14, access false 15,
    access false 16]

theorem kept_along_inTurn :
    Along step (fun _ _ s' => Kept s' true ∧ Kept s' false) start₀ inTurn := by
  refine kept_along (by intro request; cases request <;> rfl) ?_
  iterate 4
    intro s' taken
    cases taken
    refine ⟨?_, ?_⟩
    · intro acted done
      cases done
  intro s' taken
  cases taken
  refine ⟨?_, ?_⟩
  · intro acted done _ _
    exact ⟨fun _ _ held => (nomatch held), fun _ _ held => nomatch held⟩
  intro s' taken
  cases taken
  refine ⟨?_, trivial⟩
  intro acted done _ _
  refine ⟨fun copy loaded held => ?_, fun _ _ held => nomatch held⟩
  cases done
  cases held
  decide

/-- The other request loads the user before the reset, and saves the copy after it. -/
def overlapping : List Event :=
  [access false 11, access true 12, access true 13, access true 14, access true 15,
    access false 16, access false 17, access false 18]

/-- Both requests succeed, and the old password is back. -/
theorem reset_undone : ∃ s, overlapping.foldlM step start₀ = some s ∧
    (s.requests true).phase = .succeeded 15 ∧ (s.requests false).phase = .succeeded 18 ∧
    s.row = some { user₀ with emailVerified := some 8 } ∧ ¬ Kept s true := by
  refine ⟨_, rfl, rfl, rfl, rfl, ?_⟩
  intro kept
  obtain ⟨password | ⟨_, _, _, never, _⟩, _⟩ := kept 15 _ rfl rfl
  · exact absurd password (by decide)
  · cases never

end Examples

end DesecStack.Accounts.Race
