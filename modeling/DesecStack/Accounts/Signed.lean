/- module: DesecStack/Accounts/Signed
   source: api/desecapi/models/authenticated_actions.py 51-86, 101-287, api/desecapi/views/tokens.py
   digest: The state that a code carries: when it is defined, and what it commits to. -/

import DesecStack.Accounts.Actions

set_option autoImplicit false
set_option relaxedAutoImplicit false

namespace DesecStack.Accounts.Signed

open Library.PyText (Text ofInt ofInt_natCast_injective)
open Library.Json (Value dumps dumps_injective)
open Domains.Scavenge (Domain)
open Actions

/-- Actions of one class, for the same rows and with the same arguments. What a code does not list
may vary. -/
inductive Agrees : Action → Action → Prop where
  | same (action : Action) : Agrees action action
  | outreachPreference (user : Nat) (one other : Bool) :
      Agrees (.changeOutreachPreference user one) (.changeOutreachPreference user other)
  | factorName (user : Nat) (one other : Text) :
      Agrees (.createTotp user one) (.createTotp user other)

section Rows

variable {Hash : Type}

/-- The rows that the action is about are there. -/
def Present (s : Store Hash) : Action → Prop
  | .activateWithOverrideToken user token =>
    (s.findUser user).isSome ∧ (s.findToken token).isSome
  | .renewDomain user domain => (s.findUser user).isSome ∧ (s.findDomain domain).isSome
  | action => (s.findUser action.user).isSome

/-- An override token that expires, by age or for want of use. -/
def Limited (s : Store Hash) : Action → Prop
  | .activateWithOverrideToken _ token =>
    ∃ row, s.findToken token = some row ∧ (row.maxAge.isSome ∨ row.maxUnusedPeriod.isSome)
  | _ => False

/-- The state of the action is defined. Whatever the tables are when a code with that state is
validated, the code is for this action, with all that is listed as it was. -/
def Committed [DecidableEq Hash] (env : Environment Hash) (s : Store Hash) (action : Action) :
    Prop :=
  ∃ fields, stateFields env s action = some fields ∧
    ∀ s' action', validates env s' ⟨action', env.stateOf fields⟩ = true →
      Agrees action action' ∧ stateFields env s' action' = some fields

end Rows

section Fields

variable {Hash : Type} {env : Environment Hash} {s s' : Store Hash} {action action' : Action}
  {fields : List Value}

private theorem findUser_id {id : Nat} {user : User} (found : s.findUser id = some user) :
    user.id = id := by
  simpa using List.find?_some found

theorem findToken_id {id : Nat} {token : Token} (found : s.findToken id = some token) :
    token.id = id := by
  simpa using List.find?_some found

private theorem findDomain_id {id : Nat} {domain : Domain} (found : s.findDomain id = some domain) :
    domain.id = id := by
  simpa using List.find?_some found

private theorem tokenFields_eq_none_iff {token : Token} :
    tokenFields env token = none ↔ token.maxAge.isSome ∨ token.maxUnusedPeriod.isSome := by
  rw [tokenFields]
  cases token.maxAge <;> cases token.maxUnusedPeriod <;> simp

private theorem stateFields_head (listed : stateFields env s action = some fields) :
    ∃ rest, fields = .text action.name :: .text (env.uuid action.user) :: rest := by
  rw [stateFields] at listed
  obtain ⟨user, found, listed⟩ := Option.bind_eq_some_iff.mp listed
  rw [← findUser_id found]
  cases action with
  | activateWithOverrideToken =>
    obtain ⟨token, _, listed⟩ := Option.bind_eq_some_iff.mp listed
    obtain ⟨rest, _, rfl⟩ := Option.map_eq_some_iff.mp listed
    exact ⟨_, rfl⟩
  | renewDomain =>
    obtain ⟨domain, _, rfl⟩ := Option.map_eq_some_iff.mp listed
    exact ⟨_, rfl⟩
  | changeOutreachPreference => cases listed; exact ⟨_, rfl⟩
  | activate => cases listed; exact ⟨_, rfl⟩
  | changeEmail => cases listed; exact ⟨_, rfl⟩
  | confirmAccount => cases listed; exact ⟨_, rfl⟩
  | createTotp => cases listed; exact ⟨_, rfl⟩
  | resetPassword => cases listed; exact ⟨_, rfl⟩
  | deleteAccount => cases listed; exact ⟨_, rfl⟩

private theorem stateFields_activate {user : Nat} {domain : Option Text}
    (listed : stateFields env s (.activate user domain) = some fields) :
    ∃ rest, fields = rest ++ [domain.elim .null .text] := by
  obtain ⟨row, _, listed⟩ := Option.bind_eq_some_iff.mp listed
  cases listed
  exact ⟨_, rfl⟩

private theorem stateFields_changeEmail {user : Nat} {newEmail : Text}
    (listed : stateFields env s (.changeEmail user newEmail) = some fields) :
    ∃ rest, fields = rest ++ [.text newEmail] := by
  obtain ⟨row, _, listed⟩ := Option.bind_eq_some_iff.mp listed
  cases listed
  exact ⟨_, rfl⟩

private theorem stateFields_activateWithOverrideToken {user token : Nat}
    (listed : stateFields env s (.activateWithOverrideToken user token) = some fields) :
    ∃ class_ id changed isActive rest,
      fields = class_ :: id :: changed :: isActive :: .text (env.uuid token) :: rest := by
  obtain ⟨row, _, listed⟩ := Option.bind_eq_some_iff.mp listed
  obtain ⟨row', found, listed⟩ := Option.bind_eq_some_iff.mp listed
  obtain ⟨settings, given, rfl⟩ := Option.map_eq_some_iff.mp listed
  rw [tokenFields] at given
  split at given
  · cases given
    rw [findToken_id found]
    exact ⟨_, _, _, _, _, rfl⟩
  · cases given

private theorem stateFields_renewDomain {user domain : Nat}
    (listed : stateFields env s (.renewDomain user domain) = some fields) :
    ∃ class_ id rest, fields = class_ :: id :: .text (ofInt domain) :: rest := by
  obtain ⟨row, _, listed⟩ := Option.bind_eq_some_iff.mp listed
  obtain ⟨row', found, rfl⟩ := Option.map_eq_some_iff.mp listed
  rw [← findDomain_id found]
  exact ⟨_, _, _, rfl⟩

/-- The lists of two classes differ in their first value, those of one class in what they are
about. -/
theorem agrees_of_stateFields (uuid : Function.Injective env.uuid)
    (one : stateFields env s action = some fields)
    (other : stateFields env s' action' = some fields) : Agrees action action' := by
  obtain ⟨name, user⟩ : action.name = action'.name ∧ action.user = action'.user := by
    obtain ⟨rest, head⟩ := stateFields_head one
    obtain ⟨rest', head'⟩ := stateFields_head other
    have equal := head.symm.trans head'
    simp only [List.cons.injEq, Value.text.injEq] at equal
    exact ⟨equal.1, uuid equal.2.1⟩
  replace name := List.append_cancel_left name
  cases action with
  | changeOutreachPreference =>
    cases action'
    case changeOutreachPreference =>
      cases user
      exact .outreachPreference _ _ _
    all_goals simp at name
  | activate _ domain =>
    cases action'
    case activate _ domain' =>
      obtain ⟨_, listed⟩ := stateFields_activate one
      obtain ⟨_, listed'⟩ := stateFields_activate other
      have last := List.append_inj_right' (listed.symm.trans listed') rfl
      have domains : domain = domain' := by
        cases domain <;> cases domain' <;> simp_all
      cases user
      cases domains
      exact .same _
    all_goals simp at name
  | activateWithOverrideToken _ token =>
    cases action'
    case activateWithOverrideToken _ token' =>
      obtain ⟨_, _, _, _, _, listed⟩ := stateFields_activateWithOverrideToken one
      obtain ⟨_, _, _, _, _, listed'⟩ := stateFields_activateWithOverrideToken other
      have values := listed.symm.trans listed'
      simp only [List.cons.injEq, Value.text.injEq] at values
      cases user
      cases uuid values.2.2.2.2.1
      exact .same _
    all_goals simp at name
  | changeEmail _ newEmail =>
    cases action'
    case changeEmail _ newEmail' =>
      obtain ⟨_, listed⟩ := stateFields_changeEmail one
      obtain ⟨_, listed'⟩ := stateFields_changeEmail other
      cases List.append_inj_right' (listed.symm.trans listed') rfl
      cases user
      exact .same _
    all_goals simp at name
  | confirmAccount =>
    cases action'
    case confirmAccount =>
      cases user
      exact .same _
    all_goals simp at name
  | createTotp =>
    cases action'
    case createTotp =>
      cases user
      exact .factorName _ _ _
    all_goals simp at name
  | resetPassword =>
    cases action'
    case resetPassword =>
      cases user
      exact .same _
    all_goals simp at name
  | deleteAccount =>
    cases action'
    case deleteAccount =>
      cases user
      exact .same _
    all_goals simp at name
  | renewDomain _ domain =>
    cases action'
    case renewDomain _ domain' =>
      obtain ⟨_, _, _, listed⟩ := stateFields_renewDomain one
      obtain ⟨_, _, _, listed'⟩ := stateFields_renewDomain other
      have values := listed.symm.trans listed'
      simp only [List.cons.injEq, Value.text.injEq] at values
      cases user
      cases ofInt_natCast_injective values.2.2.1
      exact .same _
    all_goals simp at name

/-- The lists are there, unless one has a `timedelta` in it. -/
theorem stateFields_isSome_iff (env : Environment Hash) (present : Present s action) :
    (∃ fields, stateFields env s action = some fields) ↔ ¬ Limited s action := by
  have whole (user : Nat) (present : (s.findUser user).isSome) :
      ∃ row, s.findUser user = some row := Option.isSome_iff_exists.mp present
  cases action with
  | activateWithOverrideToken user token =>
    obtain ⟨row, found⟩ := whole user present.1
    obtain ⟨row', found'⟩ := Option.isSome_iff_exists.mp present.2
    have limited : Limited s (.activateWithOverrideToken user token) ↔
        tokenFields env row' = none := by
      rw [tokenFields_eq_none_iff]
      simp only [Limited, found', Option.some.injEq, exists_eq_left']
    rw [limited, ← Option.ne_none_iff_exists']
    simp only [stateFields, Action.user, found, found', Option.bind_some, ne_eq,
      Option.map_eq_none_iff]
  | renewDomain user domain =>
    obtain ⟨row, found⟩ := whole user present.1
    obtain ⟨row', found'⟩ := Option.isSome_iff_exists.mp present.2
    simp [stateFields, Action.user, Limited, found, found']
  | _ =>
    obtain ⟨row, found⟩ := whole _ present
    simp [stateFields, Limited, found]

end Fields

/-- For rows that are there, the state of an action is defined and commits to all that it lists,
exactly when the action is not about an override token that expires. -/
theorem committed_iff {Hash : Type} [DecidableEq Hash] {env : Environment Hash}
    (sha256 : Function.Injective env.sha256) (uuid : Function.Injective env.uuid)
    {s : Store Hash} {action : Action} (present : Present s action) :
    Committed env s action ↔ ¬ Limited s action := by
  rw [← stateFields_isSome_iff env present]
  constructor
  · rintro ⟨fields, listed, _⟩
    exact ⟨fields, listed⟩
  · rintro ⟨fields, listed⟩
    refine ⟨fields, listed, fun s' action' valid => ?_⟩
    have hashed : state env s' action' = some (env.stateOf fields) := by
      simpa only [validates, decide_eq_true_eq] using valid
    obtain ⟨fields', listed', same⟩ := Option.map_eq_some_iff.mp hashed
    cases dumps_injective (sha256 same)
    exact ⟨agrees_of_stateFields uuid listed listed', listed'⟩

/-- Ids and times are written out, and the hash is the text itself. -/
def plainEnvironment : Environment Text where
  clock := fun calls => calls + 1
  uuid := fun id => "00000000-0000-4000-8000-".toList ++ ofInt id
  isoformat := fun time => "2026-01-01T00:00:0".toList ++ ofInt time ++ "+00:00".toList
  str := fun time => "2026-01-01 00:00:0".toList ++ ofInt time ++ "+00:00".toList
  sha256 := id
  generateOtp := fun _ _ => []
  normalizeEmail := id
  collation := id
  validityPeriod := 43200000000

private theorem plainEnvironment_uuid : Function.Injective plainEnvironment.uuid := fun _ _ same =>
  ofInt_natCast_injective (List.append_cancel_left same)

/-- A user has created a token for a new user. -/
def overrideStore (maxAge : Option Nat) : Store Text :=
  { Store.empty Text with
    users := [
      ⟨100000000001, "owner@mail.test".toList, some "password".toList, some true, 1, 1, none, false,
        false⟩,
      ⟨100000000002, "user@mail.test".toList, none, none, 2, 3, none, true, false⟩]
    tokens := [{
      id := 100000000003, owner := 100000000001, userOverride := none, mfa := none
      permCreateDomain := false, permDeleteDomain := false, permManageTokens := false
      autoPolicy := true, name := "token".toList, created := 2, lastUsed := none, maxAge
      maxUnusedPeriod := none }] }

theorem committed_plain :
    Committed plainEnvironment (overrideStore none)
      (.activateWithOverrideToken 100000000002 100000000003) :=
  (committed_iff (fun _ _ same => same) plainEnvironment_uuid
    (show Present (overrideStore none) (.activateWithOverrideToken 100000000002 100000000003) from
      ⟨rfl, rfl⟩)).mpr fun ⟨row, found, limited⟩ => by
    cases found
    rcases limited with age | unused
    · cases age
    · cases unused

/-- A token that is to expire after thirty days. -/
theorem override_uncommitted :
    Present (overrideStore (some 2592000000000))
        (.activateWithOverrideToken 100000000002 100000000003) ∧
      state plainEnvironment (overrideStore (some 2592000000000))
        (.activateWithOverrideToken 100000000002 100000000003) = none ∧
      ¬ Committed plainEnvironment (overrideStore (some 2592000000000))
        (.activateWithOverrideToken 100000000002 100000000003) := by
  have undefined : stateFields plainEnvironment (overrideStore (some 2592000000000))
      (.activateWithOverrideToken 100000000002 100000000003) = none := by
    rfl
  refine ⟨⟨rfl, rfl⟩, by rw [state, undefined]; rfl, ?_⟩
  rintro ⟨fields, listed, _⟩
  rw [undefined] at listed
  cases listed

end DesecStack.Accounts.Signed
