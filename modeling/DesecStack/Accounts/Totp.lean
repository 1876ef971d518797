/- module: DesecStack/Accounts/Totp
   source: api/desecapi/models/mfa.py, api/desecapi/serializers/mfa.py
   digest: Overlapping verifications of TOTP codes, and when they accept a code once only. -/

import DesecStack.Library.Runs
import Mathlib.Logic.Function.Basic

set_option autoImplicit false
set_option relaxedAutoImplicit false

namespace DesecStack.Accounts.Totp

open Library.Runs (Along along_of_along)

/-- The columns of a `TOTPFactor` that `verify` reads or writes. -/
structure TOTPFactor where
  lastUsed : Option Nat
  lastVerifiedTimestep : Nat
  deriving DecidableEq

/-- The interval of `pyotp.TOTP`, in seconds. -/
def interval : Nat := 30

/-- `_totp.timecode` -/
def timecode (now : Nat) : Nat := now / interval

section Verification

variable {Code : Type} [DecidableEq Code] (generateOtp : Nat → Code)

/-- The loop of `verify`: the timestep whose code is accepted. -/
def matchTimestep (factor : TOTPFactor) (code : Code) (now : Nat) : Option Nat :=
  [timecode now - 1, timecode now, timecode now + 1].find? fun timestep =>
    factor.lastVerifiedTimestep < timestep && code = generateOtp timestep

/-- How far a request has come. The row is saved whole, from the copy that was loaded. -/
inductive Phase (Code : Type) where
  | waiting
  | loaded (factor : TOTPFactor)
  | matched (factor : TOTPFactor) (code : Code) (timestep now : Nat)
  | accepted (code : Code)
  | rejected

/-- The row of the factor, the requests by number, and the time. -/
structure State (Code : Type) where
  row : TOTPFactor
  requests : Nat → Phase Code
  clock : Nat

def State.put (state : State Code) (i : Nat) (phase : Phase Code) : State Code :=
  { state with requests := Function.update state.requests i phase }

/-- The steps of a request: `get_object` in `validate_code`, the comparisons, and the save. -/
inductive Step (Code : Type) where
  | load (i : Nat)
  | compare (i : Nat) (code : Code) (now : Nat)
  | save (i : Nat)

/-- A step of a request, where the request has come to it and time has not gone back. -/
def perform (state : State Code) : Step Code → Option (State Code)
  | .load i =>
      match state.requests i with
      | .waiting => some (state.put i (.loaded state.row))
      | _ => none
  | .compare i code now =>
      match state.requests i with
      | .loaded factor =>
          if now < state.clock then none
          else match matchTimestep generateOtp factor code now with
            | some timestep =>
                some { state.put i (.matched factor code timestep now) with clock := now }
            | none => some { state.put i .rejected with clock := now }
      | _ => none
  | .save i =>
      match state.requests i with
      | .matched _ code timestep now =>
          some { state.put i (.accepted code) with row := ⟨some now, timestep⟩ }
      | _ => none

/-- The code of a timestep has been accepted by one request at most. -/
def AcceptedOnce (state : State Code) : Prop :=
  ∀ timestep i j, state.requests i = .accepted (generateOtp timestep) →
    state.requests j = .accepted (generateOtp timestep) → i = j

/-- The counter has not decreased, and no code has been accepted twice. -/
def ReplaySafe (before : State Code) (_ : Step Code) (after : State Code) : Prop :=
  before.row.lastVerifiedTimestep ≤ after.row.lastVerifiedTimestep ∧
    AcceptedOnce generateOtp after

/-- Where a request saves, the counter in the database is still below the timestep of the code
that the request presented. -/
def CounterStillBelow (before : State Code) (step : Step Code) (_ : State Code) : Prop :=
  ∀ i factor code timestep now, step = .save i →
    before.requests i = .matched factor code timestep now →
      before.row.lastVerifiedTimestep < timestep

/-- All requests wait, whatever the row. -/
def initial (row : TOTPFactor) (clock : Nat) : State Code := ⟨row, fun _ => .waiting, clock⟩

end Verification

section Steps

variable {Code : Type} [DecidableEq Code] {generateOtp : Nat → Code}

/-- The copy of the row that a request works on. -/
def Phase.copy : Phase Code → Option TOTPFactor
  | .loaded factor => some factor
  | .matched factor _ _ _ => some factor
  | _ => none

omit [DecidableEq Code] in
private theorem State.put_self (state : State Code) (i : Nat) (phase : Phase Code) :
    (state.put i phase).requests i = phase := Function.update_self ..

omit [DecidableEq Code] in
private theorem State.put_other (state : State Code) {i j : Nat} (phase : Phase Code)
    (other : j ≠ i) :
    (state.put i phase).requests j = state.requests j := Function.update_of_ne other ..

private theorem matchTimestep_spec {factor : TOTPFactor} {code : Code} {now timestep : Nat}
    (found : matchTimestep generateOtp factor code now = some timestep) :
    factor.lastVerifiedTimestep < timestep ∧ code = generateOtp timestep := by
  have spec := List.find?_some found
  simpa using spec

private theorem perform_cases {state state' : State Code} {step : Step Code}
    (taken : perform generateOtp state step = some state') :
    (∃ i, step = .load i ∧ state.requests i = .waiting ∧
      state' = state.put i (.loaded state.row)) ∨
    (∃ i code now factor phase, step = .compare i code now ∧
      state.requests i = .loaded factor ∧ state' = { state.put i phase with clock := now } ∧
      (phase = .rejected ∨ ∃ timestep, phase = .matched factor code timestep now ∧
        factor.lastVerifiedTimestep < timestep ∧ code = generateOtp timestep)) ∨
    ∃ i factor code timestep now, step = .save i ∧
      state.requests i = .matched factor code timestep now ∧
      state' = { state.put i (.accepted code) with row := ⟨some now, timestep⟩ } := by
  cases step with
  | load i =>
    simp only [perform] at taken
    split at taken
    · exact .inl ⟨i, rfl, ‹_›, (Option.some.inj taken).symm⟩
    · cases taken
  | compare i code now =>
    simp only [perform] at taken
    split at taken
    case h_1 factor there =>
      split at taken
      · cases taken
      · split at taken
        case h_1 timestep found =>
          exact .inr (.inl ⟨i, code, now, factor, _, rfl, there, (Option.some.inj taken).symm,
            .inr ⟨timestep, rfl, matchTimestep_spec found⟩⟩)
        · exact .inr (.inl ⟨i, code, now, factor, _, rfl, there,
            (Option.some.inj taken).symm, .inl rfl⟩)
    · cases taken
  | save i =>
    simp only [perform] at taken
    split at taken
    case h_1 factor code timestep now there =>
      exact .inr (.inr ⟨i, factor, code, timestep, now, rfl, there,
        (Option.some.inj taken).symm⟩)
    · cases taken

/-- What holds of all runs: a copy that is out of date is so because the code of the timestep
in the row has been accepted since. -/
structure Traced (generateOtp : Nat → Code) (state : State Code) : Prop where
  matched : ∀ i factor code timestep now, state.requests i = .matched factor code timestep now →
    factor.lastVerifiedTimestep < timestep ∧ code = generateOtp timestep
  copied : ∀ i factor, (state.requests i).copy = some factor →
    factor.lastVerifiedTimestep = state.row.lastVerifiedTimestep ∨
      ∃ j, state.requests j = .accepted (generateOtp state.row.lastVerifiedTimestep)

omit [DecidableEq Code] in
private theorem traced_initial (row : TOTPFactor) (clock : Nat) :
    Traced generateOtp (initial row clock) where
  matched i _ _ _ _ there := by cases there
  copied i _ there := by cases there

omit [DecidableEq Code] in
private theorem accepted_put {state : State Code} {i j : Nat} {phase : Phase Code} {code : Code}
    (unlike : ∀ code, state.requests i ≠ .accepted code)
    (accepted : state.requests j = .accepted code) :
    (state.put i phase).requests j = .accepted code := by
  have other : j ≠ i := by
    rintro rfl
    exact unlike code accepted
  rw [state.put_other phase other, accepted]

private theorem traced_of_perform {state state' : State Code} {step : Step Code}
    (traced : Traced generateOtp state)
    (taken : perform generateOtp state step = some state') : Traced generateOtp state' := by
  rcases perform_cases taken with ⟨i, rfl, there, rfl⟩ |
    ⟨i, code, now, factor, phase, rfl, there, rfl, outcome⟩ |
    ⟨i, factor, code, timestep, now, rfl, there, rfl⟩
  · constructor
    · intro j factor code timestep now here
      rcases eq_or_ne j i with rfl | other
      · rw [State.put_self] at here
        cases here
      · exact traced.matched j _ _ _ _ (state.put_other _ other ▸ here)
    · intro j factor here
      rcases eq_or_ne j i with rfl | other
      · rw [State.put_self] at here
        exact .inl (congrArg _ (Option.some.inj here).symm)
      · rw [state.put_other _ other] at here
        refine (traced.copied j factor here).imp id ?_
        rintro ⟨k, accepted⟩
        exact ⟨k, accepted_put (by simp [there]) accepted⟩
  · constructor
    · intro j factor' code' timestep' now' here
      rcases eq_or_ne j i with rfl | other
      · rw [State.put_self] at here
        rcases outcome with rfl | ⟨timestep, rfl, spec⟩
        · cases here
        · cases here
          exact spec
      · exact traced.matched j _ _ _ _ (state.put_other _ other ▸ here)
    · intro j factor' here
      have copied : (state.requests j).copy = some factor' := by
        rcases eq_or_ne j i with rfl | other
        · rw [State.put_self] at here
          rcases outcome with rfl | ⟨timestep, rfl, _⟩
          · cases here
          · rw [there]
            exact here
        · rwa [state.put_other _ other] at here
      refine (traced.copied j factor' copied).imp id ?_
      rintro ⟨k, accepted⟩
      exact ⟨k, accepted_put (by simp [there]) accepted⟩
  · have spec := traced.matched i _ _ _ _ there
    constructor
    · intro j factor' code' timestep' now' here
      rcases eq_or_ne j i with rfl | other
      · rw [State.put_self] at here
        cases here
      · exact traced.matched j _ _ _ _ (state.put_other _ other ▸ here)
    · intro j factor' here
      refine .inr ⟨i, ?_⟩
      rw [State.put_self, spec.2]

end Steps

section Runs

variable {Code : Type} [DecidableEq Code] {generateOtp : Nat → Code}

/-- Accepted codes belong to timesteps up to the counter, and each to one request. -/
structure Guarded (generateOtp : Nat → Code) (state : State Code) : Prop where
  below : ∀ i code, state.requests i = .accepted code →
    ∃ timestep, code = generateOtp timestep ∧ timestep ≤ state.row.lastVerifiedTimestep
  once : AcceptedOnce generateOtp state

omit [DecidableEq Code] in
private theorem guarded_initial (row : TOTPFactor) (clock : Nat) :
    Guarded generateOtp (initial row clock) where
  below i _ there := by cases there
  once timestep i _ there := by cases there

omit [DecidableEq Code] in
private theorem guarded_of_put {state : State Code} {i : Nat} {phase : Phase Code} {clock : Nat}
    (guarded : Guarded generateOtp state) (unlike : ∀ code, phase ≠ .accepted code) :
    Guarded generateOtp { state.put i phase with clock := clock } := by
  have same : ∀ {j code}, (state.put i phase).requests j = .accepted code →
      state.requests j = .accepted code := by
    intro j code accepted
    rcases eq_or_ne j i with rfl | other
    · rw [State.put_self] at accepted
      exact absurd accepted (unlike code)
    · rwa [state.put_other _ other] at accepted
  constructor
  · intro j code accepted
    exact guarded.below j code (same accepted)
  · intro timestep j k first second
    exact guarded.once timestep j k (same first) (same second)

private theorem guarded_of_perform (distinct : Function.Injective generateOtp)
    {state state' : State Code} {step : Step Code} (traced : Traced generateOtp state)
    (guarded : Guarded generateOtp state)
    (taken : perform generateOtp state step = some state')
    (still : CounterStillBelow state step state') :
    ReplaySafe generateOtp state step state' ∧ Guarded generateOtp state' := by
  rcases perform_cases taken with ⟨i, rfl, there, rfl⟩ |
    ⟨i, code, now, factor, phase, rfl, there, rfl, outcome⟩ |
    ⟨i, factor, code, timestep, now, rfl, there, rfl⟩
  · have next : Guarded generateOtp (state.put i (.loaded state.row)) :=
      @guarded_of_put _ _ _ _ _ state.clock guarded (by simp)
    exact ⟨⟨Nat.le_refl _, next.once⟩, next⟩
  · have next : Guarded generateOtp { state.put i phase with clock := now } := by
      apply guarded_of_put guarded
      rcases outcome with rfl | ⟨timestep, rfl, _⟩
      · simp
      · simp
    exact ⟨⟨Nat.le_refl _, next.once⟩, next⟩
  · have grows : state.row.lastVerifiedTimestep < timestep :=
      still i factor code timestep now rfl there
    obtain ⟨_, rfl⟩ := traced.matched i _ _ _ _ there
    -- The code is new: the codes accepted so far stand for timesteps up to the counter.
    have unused : ∀ j, state.requests j ≠ .accepted (generateOtp timestep) := by
      intro j accepted
      obtain ⟨old, same, bounded⟩ := guarded.below j _ accepted
      have equal := distinct same
      omega
    have next : Guarded generateOtp
        { state.put i (.accepted (generateOtp timestep)) with row := ⟨some now, timestep⟩ } := by
      constructor
      · intro j code accepted
        rcases eq_or_ne j i with rfl | other
        · rw [State.put_self] at accepted
          cases accepted
          exact ⟨timestep, rfl, Nat.le_refl _⟩
        · rw [state.put_other _ other] at accepted
          obtain ⟨old, same, bounded⟩ := guarded.below j code accepted
          exact ⟨old, same, by show old ≤ timestep; omega⟩
      · intro other j k first second
        by_cases same : other = timestep
        · subst same
          have only : ∀ {l}, (state.put i (.accepted (generateOtp other))).requests l =
              .accepted (generateOtp other) → l = i := by
            intro l accepted
            by_contra apart
            rw [state.put_other _ apart] at accepted
            exact unused l accepted
          rw [only first, only second]
        · have old : ∀ {l}, (state.put i (.accepted (generateOtp timestep))).requests l =
              .accepted (generateOtp other) → state.requests l = .accepted (generateOtp other) := by
            intro l accepted
            rcases eq_or_ne l i with rfl | apart
            · rw [State.put_self] at accepted
              exact absurd (distinct (Phase.accepted.inj accepted).symm) same
            · rwa [state.put_other _ apart] at accepted
          exact guarded.once other j k (old first) (old second)
    exact ⟨⟨Nat.le_of_lt grows, next.once⟩, next⟩

/-- Where the counter has caught up with a code, the step breaks the property. -/
theorem counterStillBelow_of_replaySafe {state state' : State Code} {step : Step Code}
    (traced : Traced generateOtp state)
    (taken : perform generateOtp state step = some state')
    (safe : ReplaySafe generateOtp state step state') :
    CounterStillBelow state step state' := by
  rintro i factor code timestep now rfl there
  obtain ⟨monotone, once⟩ := safe
  rcases perform_cases taken with ⟨j, same, _⟩ | ⟨j, _, _, _, _, same, _⟩ |
    ⟨j, factor', code', timestep', now', same, there', rfl⟩
  · cases same
  · cases same
  · cases same
    rw [there] at there'
    cases there'
    obtain ⟨newer, rfl⟩ := traced.matched i _ _ _ _ there
    by_contra caught
    have equal : state.row.lastVerifiedTimestep = timestep := by
      have bounded : state.row.lastVerifiedTimestep ≤ timestep := monotone
      omega
    rcases traced.copied i factor (by rw [there]; rfl) with fresh | ⟨j, accepted⟩
    · omega
    · rw [equal] at accepted
      have both := once timestep j i (accepted_put (by simp [there]) accepted)
        (State.put_self ..)
      rw [both, there] at accepted
      cases accepted

/-- A run of overlapping requests accepts each code once and never decreases the counter if
and only if, whenever a request saves, the counter is still below the timestep of its code. -/
theorem replaySafe_iff (distinct : Function.Injective generateOtp) (row : TOTPFactor)
    (clock : Nat) (steps : List (Step Code)) :
    Along (perform generateOtp) (ReplaySafe generateOtp) (initial row clock) steps ↔
      Along (perform generateOtp) CounterStillBelow (initial row clock) steps := by
  constructor
  · apply along_of_along (I := Traced generateOtp) _ (traced_initial row clock)
    intro state step state' traced taken safe
    exact ⟨counterStillBelow_of_replaySafe traced taken safe, traced_of_perform traced taken⟩
  · apply along_of_along (I := fun state =>
      Traced generateOtp state ∧ Guarded generateOtp state) _
      ⟨traced_initial row clock, guarded_initial row clock⟩
    rintro state step state' ⟨traced, guarded⟩ taken still
    obtain ⟨safe, next⟩ := guarded_of_perform distinct traced guarded taken still
    exact ⟨safe, traced_of_perform traced taken, next⟩

/-- A factor whose timesteps are their own codes, and one request. -/
theorem replaySafe_single :
    Along (perform id) (ReplaySafe id) (initial ⟨none, 0⟩ 0)
      [.load 0, .compare 0 5 150, .save 0] := by
  apply (replaySafe_iff Function.injective_id ⟨none, 0⟩ 0 _).mpr
  intro loaded first
  cases first
  refine ⟨fun _ _ _ _ _ other => (by cases other), ?_⟩
  intro matched second
  cases second
  refine ⟨fun _ _ _ _ _ other => (by cases other), ?_⟩
  intro saved third
  cases third
  refine ⟨?_, trivial⟩
  intro i factor code timestep now same there
  cases same
  cases there
  exact Nat.succ_pos 4

/-- Two requests load the row, then both compare the same code, then both save. -/
theorem code_accepted_twice :
    ¬ ∀ steps, Along (perform id) (ReplaySafe id) (initial ⟨none, 0⟩ 0) steps := by
  intro safe
  obtain ⟨_, rest⟩ := safe
    [.load 0, .load 1, .compare 0 5 150, .compare 1 5 150, .save 0, .save 1] _ rfl
  obtain ⟨_, rest⟩ := rest _ rfl
  obtain ⟨_, rest⟩ := rest _ rfl
  obtain ⟨_, rest⟩ := rest _ rfl
  obtain ⟨_, rest⟩ := rest _ rfl
  obtain ⟨⟨_, once⟩, _⟩ := rest _ rfl
  exact absurd (once 5 0 1 rfl rfl) (by decide)

end Runs

end DesecStack.Accounts.Totp
