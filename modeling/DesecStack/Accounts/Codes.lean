/- module: DesecStack/Accounts/Codes
   source: api/desecapi/models/authenticated_actions.py, api/desecapi/models/users.py,
     api/desecapi/models/mfa.py
   digest: What later states keep of earlier ones, and the verification codes that this outdates. -/

import DesecStack.Accounts.Operations

set_option autoImplicit false
set_option relaxedAutoImplicit false

namespace DesecStack.Accounts.Codes

open Library.PyText (Text)
open Library.Json (Value)
open Domains.Scavenge (Domain RenewalState)
open Domains.Renewal (Bounded Stirred updated)
open Actions Operations

/-- Time passes from call to call, states do not collide, and times are written apart. -/
structure Distinguishing {Hash : Type} (env : Environment Hash) : Prop where
  clock : StrictMono env.clock
  sha256 : Function.Injective env.sha256
  isoformat : Function.Injective env.isoformat
  str : Function.Injective env.str

private theorem Distinguishing.stateOf {Hash : Type} {env : Environment Hash}
    (distinguishing : Distinguishing env) : Function.Injective env.stateOf := fun _ _ same =>
  Library.Json.dumps_injective (distinguishing.sha256 same)

section Keys

variable {α β : Type}

/-- The rows have keys of their own. -/
def Keyed (key : α → β) (rows : List α) : Prop :=
  ∀ row ∈ rows, ∀ other ∈ rows, key row = key other → row = other

theorem Keyed.filter {key : α → β} {rows : List α} (keyed : Keyed key rows) (kept : α → Bool) :
    Keyed key (rows.filter kept) := fun row member other otherMember same =>
  keyed row (List.mem_of_mem_filter member) other (List.mem_of_mem_filter otherMember) same

theorem Keyed.map {key : α → β} {rows : List α} (keyed : Keyed key rows) {change : α → α}
    (same : ∀ row ∈ rows, key (change row) = key row) : Keyed key (rows.map change) := by
  intro row member other otherMember equal
  obtain ⟨old, there, rfl⟩ := List.mem_map.mp member
  obtain ⟨otherOld, otherThere, rfl⟩ := List.mem_map.mp otherMember
  rw [same old there, same otherOld otherThere] at equal
  rw [keyed old there otherOld otherThere equal]

theorem Keyed.append {key : α → β} {rows : List α} (keyed : Keyed key rows) {row : α}
    (fresh : ∀ old ∈ rows, key old ≠ key row) : Keyed key (rows ++ [row]) := by
  intro one member other otherMember equal
  rcases List.mem_append.mp member with old | new
  · rcases List.mem_append.mp otherMember with otherOld | otherNew
    · exact keyed one old other otherOld equal
    · rw [List.mem_singleton.mp otherNew] at equal
      exact absurd equal (fresh one old)
  · rw [List.mem_singleton.mp new] at equal ⊢
    rcases List.mem_append.mp otherMember with otherOld | otherNew
    · exact absurd equal.symm (fresh other otherOld)
    · exact (List.mem_singleton.mp otherNew).symm

end Keys

/-- The row knows no time from `now` on. -/
def Early (now : Nat) (domain : Domain) : Prop := ∃ time < now, Bounded time domain

theorem Early.mono {now later : Nat} {domain : Domain} (early : Early now domain)
    (le : now ≤ later) : Early later domain := by
  obtain ⟨time, past, bounded⟩ := early
  exact ⟨time, past.trans_le le, bounded⟩

/-- The rows have ids of their own, which have been given out, and their times are over. -/
structure Tables {Hash : Type} (env : Environment Hash) (s : Store Hash) : Prop where
  users : ∀ user ∈ s.users, user.id < s.nextId ∧ user.credentialsChanged < s.now env
  userIds : Keyed User.id s.users
  factors : ∀ factor ∈ s.factors, factor.id < s.nextId
  factorIds : Keyed Factor.id s.factors
  domains : ∀ domain ∈ s.domains, domain.id < s.nextId ∧ Early (s.now env) domain

/-- Used factors are still there, and where MFA is off, it has stayed off without new factors. -/
structure FactorsKept {Hash : Type} (s s' : Store Hash) (user : Nat) : Prop where
  used : ∀ factor ∈ s.factors, factor.user = user → factor.totp.lastUsed.isSome →
    ∃ kept ∈ s'.factors, kept.id = factor.id ∧ kept.user = user ∧ kept.totp.lastUsed.isSome
  off : s.mfaEnabled user = false → s'.mfaEnabled user = false ∧
    ∀ factor ∈ s'.factors, factor.user = user →
      ∃ old ∈ s.factors, old.id = factor.id ∧ old.user = user

/-- A user row later on: credentials have changed at a later time, or not at all. -/
structure Continues {Hash : Type} (s s' : Store Hash) (before after : User) : Prop where
  id : after.id = before.id
  credentialsChanged : before.credentialsChanged ≤ after.credentialsChanged
  isActive : before.isActive ≠ none → after.isActive ≠ none
  unchanged : after.credentialsChanged = before.credentialsChanged →
    after.email = before.email ∧ after.password = before.password ∧ FactorsKept s s' before.id

/-- What later states keep: ids are not given out again, and times do not go back. -/
structure Follows {Hash : Type} (s s' : Store Hash) : Prop where
  nextId : s.nextId ≤ s'.nextId
  users : ∀ after ∈ s'.users, after.id < s.nextId → ∃ before ∈ s.users, Continues s s' before after
  domains : ∀ after ∈ s'.domains, after.id < s.nextId →
    ∃ before ∈ s.domains, before.id = after.id ∧ before.renewalChanged ≤ after.renewalChanged

section Follows

variable {Hash : Type} {s t u : Store Hash}

theorem factorsKept_of_eq {user : Nat} (same : t.factors = s.factors) : FactorsKept s t user where
  used := fun factor member owned used => ⟨factor, same ▸ member, rfl, owned, used⟩
  off := by
    intro off
    refine ⟨by rw [Store.mfaEnabled, same]; exact off, fun factor member owned => ?_⟩
    exact ⟨factor, same ▸ member, rfl, owned⟩

private theorem FactorsKept.trans {user : Nat} (first : FactorsKept s t user)
    (second : FactorsKept t u user) : FactorsKept s u user where
  used := by
    intro factor member owned used
    obtain ⟨mid, there, same, midOwned, midUsed⟩ := first.used factor member owned used
    obtain ⟨kept, present, again, keptOwned, keptUsed⟩ := second.used mid there midOwned midUsed
    exact ⟨kept, present, again.trans same, keptOwned, keptUsed⟩
  off := by
    intro off
    obtain ⟨midOff, midOld⟩ := first.off off
    obtain ⟨lastOff, lastOld⟩ := second.off midOff
    refine ⟨lastOff, fun factor member owned => ?_⟩
    obtain ⟨mid, there, same, midOwned⟩ := lastOld factor member owned
    obtain ⟨old, present, again, oldOwned⟩ := midOld mid there midOwned
    exact ⟨old, present, again.trans same, oldOwned⟩

private theorem Continues.trans {before mid after : User} (first : Continues s t before mid)
    (second : Continues t u mid after) : Continues s u before after where
  id := second.id.trans first.id
  credentialsChanged := first.credentialsChanged.trans second.credentialsChanged
  isActive := fun decided => second.isActive (first.isActive decided)
  unchanged := by
    intro same
    have later := second.credentialsChanged
    have earlier := first.credentialsChanged
    obtain ⟨email, password, factors⟩ := first.unchanged (by omega)
    obtain ⟨email', password', factors'⟩ := second.unchanged (by omega)
    rw [first.id] at factors'
    exact ⟨email'.trans email, password'.trans password, factors.trans factors'⟩

theorem Follows.refl (s : Store Hash) : Follows s s where
  nextId := le_rfl
  users := fun user member _ =>
    ⟨user, member, rfl, le_rfl, id, fun _ => ⟨rfl, rfl, factorsKept_of_eq rfl⟩⟩
  domains := fun domain member _ => ⟨domain, member, rfl, le_rfl⟩

theorem Follows.trans (first : Follows s t) (second : Follows t u) : Follows s u where
  nextId := first.nextId.trans second.nextId
  users := by
    intro after member given
    obtain ⟨mid, there, later⟩ := second.users after member (given.trans_le first.nextId)
    obtain ⟨before, present, earlier⟩ := first.users mid there (later.id ▸ given)
    exact ⟨before, present, earlier.trans later⟩
  domains := by
    intro after member given
    obtain ⟨mid, there, same, later⟩ := second.domains after member (given.trans_le first.nextId)
    obtain ⟨before, present, again, earlier⟩ := first.domains mid there (same ▸ given)
    exact ⟨before, present, again.trans same, earlier.trans later⟩

end Follows

section Codes

variable {Hash : Type} (env : Environment Hash)

/-- What the state of the code says about the user of an `AuthenticatedUserAction`. -/
def Dated (code : Code Hash) (time : Nat) (isActive : Option Bool) : Prop :=
  ∃ rest, code.state = env.stateOf ([.text code.action.name, .text (env.uuid code.action.user),
    .text (env.isoformat time), isActive.elim .null .bool] ++ rest)

/-- What the state of the code says about the renewal of a domain. -/
def Renewed (code : Code Hash) (time : Nat) : Prop :=
  ∃ fields, code.state = env.stateOf (fields ++ [.text (env.str time)])

/-- Codes are about rows that have been there, and not about the future. -/
structure Known (s : Store Hash) (code : Code Hash) : Prop where
  user : code.action.user < s.nextId
  domain : ∀ user domain, code.action = .renewDomain user domain → domain < s.nextId
  dated : code.action.isUserAction = true → ∃ time isActive, Dated env code time isActive ∧
    ∀ user ∈ s.users, user.id = code.action.user → time ≤ user.credentialsChanged

/-- Account operations issue codes for activations when activation is pending, and codes for
factors when MFA is off. -/
structure Regular (s : Store Hash) (code : Code Hash) : Prop where
  activation : code.action.isActivation = true → ∃ time, Dated env code time none
  totp : ∀ user name, code.action = .createTotp user name →
    ∃ time isActive, Dated env code time isActive ∧ ∀ row ∈ s.users, row.id = user →
      time ≤ row.credentialsChanged ∧
        (row.credentialsChanged = time → s.mfaEnabled user = false)

/-- Since the code was issued, credentials have changed or the activation has taken place. -/
def Outdated (s : Store Hash) (code : Code Hash) : Prop :=
  code.action.user < s.nextId ∧ ∃ time isActive, Dated env code time isActive ∧
    ∀ user ∈ s.users, user.id = code.action.user →
      time < user.credentialsChanged ∨ isActive = none ∧ user.isActive ≠ none

/-- The renewal state of the domain has changed since the code was issued. -/
def Superseded (s : Store Hash) (code : Code Hash) (domain : Nat) : Prop :=
  domain < s.nextId ∧ ∃ time, Renewed env code time ∧
    ∀ row ∈ s.domains, row.id = domain → time < row.renewalChanged

/-- What holds of every state of a run. -/
structure Sound (s : Store Hash) : Prop where
  tables : Tables env s
  known : ∀ code, code ∈ s.issued ∨ code ∈ s.mailed → Known env s code
  regular : ∀ code ∈ s.issued, Regular env s code

variable {env} {s s' : Store Hash} {code : Code Hash}

theorem dated_inj (distinguishing : Distinguishing env) {time time' : Nat}
    {isActive isActive' : Option Bool} (one : Dated env code time isActive)
    (other : Dated env code time' isActive') : time = time' ∧ isActive = isActive' := by
  obtain ⟨rest, state⟩ := one
  obtain ⟨rest', state'⟩ := other
  have fields := distinguishing.stateOf (state.symm.trans state')
  simp only [List.cons_append, List.cons.injEq, true_and, Value.text.injEq] at fields
  refine ⟨distinguishing.isoformat fields.1, ?_⟩
  cases isActive <;> cases isActive' <;> simp_all

private theorem renewed_inj (distinguishing : Distinguishing env) {time time' : Nat}
    (one : Renewed env code time) (other : Renewed env code time') : time = time' := by
  obtain ⟨fields, state⟩ := one
  obtain ⟨fields', state'⟩ := other
  have equal := distinguishing.stateOf (state.symm.trans state')
  have last := List.append_inj_right' equal rfl
  simp only [List.cons.injEq, and_true, Value.text.injEq] at last
  exact distinguishing.str last

theorem Known.follows (known : Known env s code) (follows : Follows s s') : Known env s' code where
  user := known.user.trans_le follows.nextId
  domain := fun user domain renewal => (known.domain user domain renewal).trans_le follows.nextId
  dated := by
    intro kind
    obtain ⟨time, isActive, dated, past⟩ := known.dated kind
    refine ⟨time, isActive, dated, fun after member same => ?_⟩
    obtain ⟨before, there, later⟩ := follows.users after member (same ▸ known.user)
    exact (past before there (later.id.symm.trans same)).trans later.credentialsChanged

theorem Regular.follows (known : Known env s code) (regular : Regular env s code)
    (follows : Follows s s') : Regular env s' code where
  activation := regular.activation
  totp := by
    intro user name kind
    obtain ⟨time, isActive, dated, past⟩ := regular.totp user name kind
    refine ⟨time, isActive, dated, fun after member same => ?_⟩
    have given : after.id < s.nextId := by
      have := known.user
      rw [kind] at this
      exact same ▸ this
    obtain ⟨before, there, later⟩ := follows.users after member given
    obtain ⟨le, off⟩ := past before there (later.id.symm.trans same)
    refine ⟨le.trans later.credentialsChanged, fun still => ?_⟩
    have between := later.credentialsChanged
    -- The time is that of the row all along, so factors have been kept.
    have kept := (later.unchanged (by omega)).2.2
    rw [later.id.symm.trans same] at kept
    exact (kept.off (off (by omega))).1

theorem Outdated.follows (outdated : Outdated env s code) (follows : Follows s s') :
    Outdated env s' code := by
  obtain ⟨given, time, isActive, dated, past⟩ := outdated
  refine ⟨given.trans_le follows.nextId, time, isActive, dated, fun after member same => ?_⟩
  obtain ⟨before, there, later⟩ := follows.users after member (same ▸ given)
  rcases past before there (later.id.symm.trans same) with newer | ⟨pending, decided⟩
  · exact .inl (newer.trans_le later.credentialsChanged)
  · exact .inr ⟨pending, later.isActive decided⟩

theorem Superseded.follows {domain : Nat} (superseded : Superseded env s code domain)
    (follows : Follows s s') : Superseded env s' code domain := by
  obtain ⟨given, time, renewed, past⟩ := superseded
  refine ⟨given.trans_le follows.nextId, time, renewed, fun after member same => ?_⟩
  obtain ⟨before, there, again, later⟩ := follows.domains after member (same ▸ given)
  exact (past before there (again.trans same)).trans_le later

end Codes

section States

variable {Hash : Type} {env : Environment Hash} {s : Store Hash} {code : Code Hash}

theorem mem_of_findUser {id : Nat} {user : User} (found : s.findUser id = some user) :
    user ∈ s.users ∧ user.id = id :=
  ⟨List.mem_of_find?_eq_some found, by simpa using List.find?_some found⟩

theorem mem_of_findFactor {id : Nat} {factor : Factor} (found : s.findFactor id = some factor) :
    factor ∈ s.factors ∧ factor.id = id :=
  ⟨List.mem_of_find?_eq_some found, by simpa using List.find?_some found⟩

private theorem mem_of_findDomain {id : Nat} {domain : Domain}
    (found : s.findDomain id = some domain) :
    domain ∈ s.domains ∧ domain.id = id :=
  ⟨List.mem_of_find?_eq_some found, by simpa using List.find?_some found⟩

theorem user_of_state {action : Action} {hash : Hash} (computed : state env s action = some hash) :
    ∃ user ∈ s.users, user.id = action.user := by
  obtain ⟨fields, found, _⟩ := Option.map_eq_some_iff.mp computed
  obtain ⟨user, there, _⟩ := Option.bind_eq_some_iff.mp found
  exact ⟨user, mem_of_findUser there⟩

/-- The state of an `AuthenticatedUserAction` says when credentials have changed. -/
theorem dated_of_state (computed : state env s code.action = some code.state)
    (kind : code.action.isUserAction = true) :
    ∃ user ∈ s.users, user.id = code.action.user ∧
      Dated env code user.credentialsChanged user.isActive := by
  obtain ⟨fields, found, hash⟩ := Option.map_eq_some_iff.mp computed
  obtain ⟨user, there, said⟩ := Option.bind_eq_some_iff.mp found
  obtain ⟨member, same⟩ := mem_of_findUser there
  refine ⟨user, member, same, ?_⟩
  have listed : ∃ rest, fields = userFields env code.action user ++ rest := by
    generalize code.action = action at *
    cases action with
    | changeOutreachPreference => cases kind
    | confirmAccount => cases kind
    | renewDomain => cases kind
    | activateWithOverrideToken _ token =>
      obtain ⟨row, _, mapped⟩ := Option.bind_eq_some_iff.mp said
      obtain ⟨rest, _, rfl⟩ := Option.map_eq_some_iff.mp mapped
      exact ⟨rest, rfl⟩
    | activate => exact ⟨_, (Option.some.inj said).symm⟩
    | changeEmail => exact ⟨_, (Option.some.inj said).symm⟩
    | _ => exact ⟨[], by rw [List.append_nil]; exact (Option.some.inj said).symm⟩
  obtain ⟨rest, rfl⟩ := listed
  refine ⟨rest, ?_⟩
  rw [← hash, userFields, basicFields, same]
  rfl

/-- The state of a renewal says when the renewal state has changed. -/
theorem renewed_of_state {user domain : Nat} (kind : code.action = .renewDomain user domain)
    (computed : state env s code.action = some code.state) :
    ∃ row ∈ s.domains, row.id = domain ∧ Renewed env code row.renewalChanged := by
  obtain ⟨fields, found, hash⟩ := Option.map_eq_some_iff.mp computed
  rw [kind] at found
  obtain ⟨_, _, said⟩ := Option.bind_eq_some_iff.mp found
  obtain ⟨row, there, rfl⟩ := Option.map_eq_some_iff.mp said
  obtain ⟨member, same⟩ := mem_of_findDomain there
  exact ⟨row, member, same, _, hash.symm⟩

variable [DecidableEq Hash]

theorem state_of_validates (validated : validates env s code = true) :
    state env s code.action = some code.state := of_decide_eq_true validated

theorem validates_of_outdated (distinguishing : Distinguishing env)
    (kind : code.action.isUserAction = true) (outdated : Outdated env s code) :
    validates env s code = false := by
  apply Bool.eq_false_of_not_eq_true
  intro validated
  obtain ⟨user, member, same, dated⟩ := dated_of_state (state_of_validates validated) kind
  obtain ⟨_, time, isActive, datedBefore, past⟩ := outdated
  obtain ⟨rfl, rfl⟩ := dated_inj distinguishing dated datedBefore
  rcases past user member same with newer | ⟨pending, decided⟩
  · exact absurd newer (lt_irrefl _)
  · exact decided pending

theorem validates_of_superseded (distinguishing : Distinguishing env) {user domain : Nat}
    (kind : code.action = .renewDomain user domain) (superseded : Superseded env s code domain) :
    validates env s code = false := by
  apply Bool.eq_false_of_not_eq_true
  intro validated
  obtain ⟨row, member, same, renewed⟩ := renewed_of_state kind (state_of_validates validated)
  obtain ⟨_, time, renewedBefore, past⟩ := superseded
  have equal := renewed_inj distinguishing renewed renewedBefore
  have newer := past row member same
  omega

end States

end DesecStack.Accounts.Codes
