/- module: DesecStack/Accounts/Activation
   source: api/desecapi/models/authenticated_actions.py 42-98, 175-201,
     api/desecapi/models/users.py, api/desecapi/models/tokens.py
   digest: The activation of an account with an override token, and when it is atomic. -/

import DesecStack.Accounts.Actions
import DesecStack.Tokens.Binding

set_option autoImplicit false
set_option relaxedAutoImplicit false

namespace DesecStack.Accounts.Activation

open Library.PyText (Text)
open Actions (User)
open Tokens.Policies Tokens.Store Tokens.Primacy Tokens.Binding

/-- The row of the user and the tables of tokens and policies. Each `save` commits. -/
structure State where
  user : User
  tables : Tables

/-- `User.activate`, after the preference has been set. -/
def activated (outreachPreference : Bool) (user : User) : User :=
  { user with outreachPreference, isActive := some true, needsCaptcha := false }

/-- `AuthenticatedActivateUserWithOverrideTokenAction._act`: what is in the database then, and
whether no exception was raised. A policy that `Token.save` may create has an id of its own. -/
def actValidated (outreachPreference : Bool) (token policyId : Nat) (s : State) : State × Bool :=
  let saved : State := { s with user := activated outreachPreference s.user }
  match (findToken s.tables token).bind fun row =>
      updateToken saved.tables { row with userOverride := some s.user.id } policyId with
  | some tables => ({ saved with tables }, true)
  | none => (saved, false)

/-- `AuthenticatedAction.act` -/
def act (validated outreachPreference : Bool) (token policyId : Nat) (s : State) : State × Bool :=
  if validated then actValidated outreachPreference token policyId s else (s, false)

/-- The user is active, and the token is bound to the user. -/
def Completed (s : State) (token : Nat) : Prop :=
  s.user.isActive = some true ∧
    ∃ row, findToken s.tables token = some row ∧ row.userOverride = some s.user.id

/-- All or nothing. -/
def Atomic (s : State) (token : Nat) (outcome : State × Bool) : Prop :=
  (outcome.2 = true ∧ Completed outcome.1 token) ∨ (outcome.2 = false ∧ outcome.1 = s)

section Binding

variable {tables : Tables} {token : Token}

private theorem findToken_afterBinding (found : findToken tables token.id = some token)
    (user : Nat) :
    findToken (afterBinding tables token user) token.id = some (bound token user) := by
  have ids (old : Token) : (if old.id = token.id then bound token user else old).id = old.id := by
    split
    · next same => exact same.symm
    · rfl
  rw [findToken, afterBinding, List.find?_map]
  have same : ((fun row : Token => decide (row.id = token.id)) ∘ fun old =>
      if old.id = token.id then bound token user else old) =
        fun row : Token => decide (row.id = token.id) := by
    ext old
    simp only [Function.comp_apply, ids]
  rw [same]
  rw [findToken] at found
  rw [found, Option.map_some, if_pos rfl]

/-- The action completes, or it raises after the user has been saved. -/
theorem actValidated_cases (sound : Sound tables) (linked : Linked tables) {user : User}
    (found : findToken tables token.id = some token) (fresh : token.userOverride = none)
    (other : token.owner ≠ user.id) (outreachPreference : Bool) (policyId : Nat) :
    (Bindable tables token ∧ actValidated outreachPreference token.id policyId ⟨user, tables⟩ =
        (⟨activated outreachPreference user, afterBinding tables token user.id⟩, true)) ∨
      (¬ Bindable tables token ∧ actValidated outreachPreference token.id policyId ⟨user, tables⟩ =
        (⟨activated outreachPreference user, tables⟩, false)) := by
  have binding (tables' : Tables) :
      updateToken tables (bound token user.id) policyId = some tables' ↔ _ :=
    updateToken_bound sound linked found fresh other policyId
  simp only [actValidated, found, Option.bind_some]
  cases updated : updateToken tables { token with userOverride := some user.id } policyId with
  | some tables' =>
    obtain ⟨bindable, rfl⟩ := (binding tables').mp updated
    exact .inl ⟨bindable, rfl⟩
  | none =>
    right
    refine ⟨fun bindable => ?_, rfl⟩
    have done := (binding _).mpr ⟨bindable, rfl⟩
    rw [bound, updated] at done
    cases done

end Binding

/-- In every state of the tables that is reached, the activation is atomic for the tokens that can
be bound to a user; for the others, the user is saved before the exception. -/
theorem activation_atomic_iff (operations : List Operation) (user : User) {token : Token}
    (found : findToken (reached operations) token.id = some token)
    (fresh : token.userOverride = none) (other : token.owner ≠ user.id)
    (validated outreachPreference : Bool) (policyId : Nat) :
    Atomic ⟨user, reached operations⟩ token.id
        (act validated outreachPreference token.id policyId ⟨user, reached operations⟩) ↔
      validated = false ∨ Bindable (reached operations) token ∨
        activated outreachPreference user = user := by
  cases validated with
  | false => simp [act, Atomic]
  | true =>
    rw [act, if_pos rfl]
    rcases actValidated_cases (sound_reached operations) (linked_reached operations) found fresh
        other outreachPreference policyId with ⟨bindable, done⟩ | ⟨refused, raised⟩
    · rw [done]
      refine iff_of_true (.inl ⟨rfl, rfl, bound token user.id, ?_, rfl⟩) (.inr (.inl bindable))
      exact findToken_afterBinding found user.id
    · rw [raised]
      constructor
      · rintro (⟨completed, _⟩ | ⟨_, unchanged⟩)
        · cases completed
        · exact .inr (.inr (congrArg State.user unchanged))
      · rintro (invalid | bindable | unchanged)
        · cases invalid
        · exact absurd bindable refused
        · exact .inr ⟨rfl, congrArg (State.mk · _) unchanged⟩

/-- A user that has been registered for a token. -/
def pending : User where
  id := 8
  email := "user@mail.test".toList
  password := none
  isActive := none
  created := 0
  credentialsChanged := 1
  lastLogin := none
  needsCaptcha := true
  outreachPreference := false

/-- A token as it is created by default, and one that manages tokens. -/
def plainToken : Token := ⟨1, 7, none, none, false, false, false, true⟩

def managingToken : Token := ⟨1, 7, none, none, false, false, true, false⟩

theorem activation_atomic_plain :
    Atomic ⟨pending, reached [.createToken plainToken 1]⟩ 1
      (act true true 1 2 ⟨pending, reached [.createToken plainToken 1]⟩) :=
  (activation_atomic_iff [.createToken plainToken 1] pending
    (show findToken (reached [.createToken plainToken 1]) plainToken.id = some plainToken by decide)
    rfl (by decide) true true 2).mpr (.inr (.inl ⟨rfl, rfl, by decide⟩))

/-- The user is active, and the token is not bound. -/
theorem activation_torn :
    findToken (reached [.createToken managingToken 1]) 1 = some managingToken ∧
      act true true 1 2 ⟨pending, reached [.createToken managingToken 1]⟩ =
        (⟨activated true pending, reached [.createToken managingToken 1]⟩, false) ∧
      ¬ Atomic ⟨pending, reached [.createToken managingToken 1]⟩ 1
        (act true true 1 2 ⟨pending, reached [.createToken managingToken 1]⟩) := by
  have raised : act true true 1 2 ⟨pending, reached [.createToken managingToken 1]⟩ =
      (⟨activated true pending, reached [.createToken managingToken 1]⟩, false) := by
    rfl
  refine ⟨by decide, raised, ?_⟩
  rw [raised]
  rintro (⟨completed, _⟩ | ⟨_, unchanged⟩)
  · cases completed
  · exact absurd (congrArg State.user unchanged) (by decide)

end DesecStack.Accounts.Activation
