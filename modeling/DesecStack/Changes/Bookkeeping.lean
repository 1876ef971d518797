/- module: DesecStack/Changes/Bookkeeping
   source: api/desecapi/pdns_change_tracker.py
   digest: The counter, the signal receivers and the transactions of the trackers of a process. -/

import DesecStack.Library.Runs

set_option autoImplicit false
set_option relaxedAutoImplicit false

namespace DesecStack.Changes.Bookkeeping

open Library.Runs (Along along_of_along)

/-- How a call ends. An `interrupted` one raises an exception that is not an `Exception`. -/
inductive Call where
  | returns
  | raises
  | interrupted
  deriving DecidableEq

/-- The calls that `__exit__` makes for one change. -/
structure ChangeCalls where
  pdnsDo : Call
  apiDo : Call
  pchDo : Call

/-- What a tracker meets on leaving: an exception from its body, the changes that
`_compute_changes` returns unless it raises, and whether the database commits. -/
structure Leaving where
  bodyRaised : Bool
  changes : Option (List ChangeCalls)
  commits : Bool

inductive Outcome where
  | committed
  | rolledBack
  deriving DecidableEq

/-- The state of a process. Trackers are numbered. A tracker is entered while its `__enter__` has
returned and its `__exit__` has not run. The receivers of the signals are methods of a tracker. -/
structure Process where
  activeChangeTrackers : Nat
  receivers : Option Nat
  entered : List Nat
  begun : List Nat
  finished : List (Nat × Outcome)
  next : Nat

def initial : Process := ⟨0, none, [], [], [], 0⟩

/-- `_manage_signals("connect")`, which connects nothing twice under one `dispatch_uid`. -/
def connect (tracker : Nat) (p : Process) : Process :=
  { p with receivers := p.receivers.or (some tracker) }

/-- `_manage_signals("disconnect")`, which finds the receivers by their `dispatch_uid`. -/
def disconnect (p : Process) : Process := { p with receivers := none }

/-- `transaction.__exit__` -/
def finish (tracker : Nat) (outcome : Outcome) (p : Process) : Process :=
  { p with finished := p.finished ++ [(tracker, outcome)] }

/-- `__enter__`, where `begins` tells whether `atomic().__enter__()` returns. The result is the
process afterwards, and whether `__enter__` returned. -/
def enter (begins : Bool) (p : Process) : Process × Bool :=
  let tracker := p.next
  let p := { p with activeChangeTrackers := p.activeChangeTrackers + 1, next := p.next + 1 }
  if p.activeChangeTrackers = 1 then
    let p := connect tracker p
    if begins then
      ({ p with entered := p.entered ++ [tracker], begun := p.begun ++ [tracker] }, true)
    else (p, false)
  else (p, false)

/-- The body of the loop over the changes, up to the first call that does not return. -/
def ChangeCalls.run (pchApi : Bool) (calls : ChangeCalls) : Call :=
  match calls.pdnsDo, calls.apiDo with
  | .returns, .returns => if pchApi then calls.pchDo else .returns
  | .returns, other => other
  | other, _ => other

def runChanges (pchApi : Bool) : List ChangeCalls → Call
  | [] => .returns
  | calls :: rest =>
    match calls.run pchApi with
    | .returns => runChanges pchApi rest
    | other => other

/-- How `__exit__` finishes the transaction, if it does. -/
def Leaving.finishes (pchApi : Bool) (leaving : Leaving) : Option Outcome :=
  if leaving.bodyRaised then some .rolledBack
  else
    match leaving.changes with
    | none => none
    | some changes =>
      match runChanges pchApi changes with
      | .returns => some (if leaving.commits then .committed else .rolledBack)
      | .raises => some .rolledBack
      | .interrupted => none

/-- `__exit__` of a tracker. -/
def exit (pchApi : Bool) (tracker : Nat) (leaving : Leaving) (p : Process) : Process :=
  let p := disconnect { p with
    activeChangeTrackers := p.activeChangeTrackers - 1, entered := p.entered.erase tracker }
  match leaving.finishes pchApi with
  | some outcome => finish tracker outcome p
  | none => p

/-- Trackers are entered, and those that are entered exit. Receivers are weak references: they go
with their tracker once nobody refers to it. -/
inductive Event where
  | enter (begins : Bool)
  | exit (tracker : Nat) (leaving : Leaving)
  | collect

def step (pchApi : Bool) (p : Process) : Event → Option Process
  | .enter begins => some (enter begins p).1
  | .exit tracker leaving =>
    if tracker ∈ p.entered then some (exit pchApi tracker leaving p) else none
  | .collect =>
    some (if p.receivers.any (· ∉ p.entered) then { p with receivers := none } else p)

/-- The counter counts the trackers that are entered, the receivers are connected if it is one,
and every transaction has been finished once if its tracker has exited, and not before; so the
next tracker can be entered. -/
structure Restored (p : Process) : Prop where
  counted : p.activeChangeTrackers = p.entered.length
  connected : p.receivers.isSome ↔ p.entered.length = 1
  finished : ∀ tracker ∈ p.begun, p.finished.countP (·.1 = tracker) =
    if tracker ∈ p.entered then 0 else 1
  available : p.entered = [] → (enter true p).2 = true

/-- The calls that are made for changes, if all of them return. -/
def callsOf (pchApi : Bool) (changes : List ChangeCalls) : List Call :=
  changes.flatMap fun calls =>
    [calls.pdnsDo, calls.apiDo] ++ if pchApi then [calls.pchDo] else []

/-- No tracker is entered while another one is, or without a transaction; and where the body of a
tracker has returned, `_compute_changes` returns, and the first call that does not is not
interrupted. -/
def Handled (pchApi : Bool) (p : Process) : Event → Prop
  | .enter begins => p.entered = [] ∧ begins = true
  | .exit _ leaving => leaving.bodyRaised = true ∨
      ∃ changes, leaving.changes = some changes ∧
        (callsOf pchApi changes).find? (· ≠ .returns) ≠ some .interrupted
  | .collect => True

variable {pchApi : Bool}

private theorem runChanges_eq (changes : List ChangeCalls) :
    runChanges pchApi changes =
      ((callsOf pchApi changes).find? (· ≠ .returns)).getD .returns := by
  induction changes with
  | nil => rfl
  | cons calls rest ih =>
    obtain ⟨pdnsDo, apiDo, pchDo⟩ := calls
    rw [runChanges, ih]
    cases pchApi <;> cases pdnsDo <;> cases apiDo <;> cases pchDo <;> rfl

private theorem finishes_isSome_iff {p : Process} {tracker : Nat} {leaving : Leaving} :
    (leaving.finishes pchApi).isSome ↔ Handled pchApi p (.exit tracker leaving) := by
  obtain ⟨bodyRaised, changes, commits⟩ := leaving
  cases bodyRaised with
  | true => simp [Leaving.finishes, Handled]
  | false =>
    cases changes with
    | none => simp [Leaving.finishes, Handled]
    | some changes =>
      simp only [Leaving.finishes, Handled, runChanges_eq, Bool.false_eq_true, if_false, false_or,
        Option.some.injEq, exists_eq_left']
      cases first : (callsOf pchApi changes).find? (· ≠ .returns) with
      | none => simp
      | some call =>
        have other : call ≠ .returns := by simpa using List.find?_some first
        cases call with
        | returns => exact absurd rfl other
        | raises => simp
        | interrupted => simp

/-- What else holds of a process in order: trackers are numbered, at most one is entered, that one
has begun a transaction, and the receivers are its own. -/
structure Sound (p : Process) : Prop where
  begun : ∀ tracker ∈ p.begun, tracker < p.next
  finished : ∀ entry ∈ p.finished, entry.1 < p.next
  entered : ∀ tracker ∈ p.entered, tracker ∈ p.begun
  single : p.entered.length ≤ 1
  owned : ∀ tracker, p.receivers = some tracker → tracker ∈ p.entered

private theorem sound_initial : Sound initial where
  begun := fun _ member => absurd member List.not_mem_nil
  finished := fun _ member => absurd member List.not_mem_nil
  entered := fun _ member => absurd member List.not_mem_nil
  single := Nat.zero_le 1
  owned := by
    intro tracker never
    cases never

private theorem restored_initial : Restored initial where
  counted := rfl
  connected := by decide
  finished := fun _ member => absurd member List.not_mem_nil
  available := fun _ => rfl

private theorem countP_finished_of_le {p : Process} (sound : Sound p) {tracker : Nat}
    (fresh : p.next ≤ tracker) : p.finished.countP (·.1 = tracker) = 0 := by
  rw [List.countP_eq_zero]
  intro entry member same
  have before := sound.finished entry member
  rw [decide_eq_true_eq] at same
  omega

private theorem enter_cases (begins : Bool) (p : Process) :
    (p.activeChangeTrackers = 0 ∧ begins = true ∧ enter begins p =
      ({ connect p.next p with
          activeChangeTrackers := 1
          next := p.next + 1
          entered := p.entered ++ [p.next]
          begun := p.begun ++ [p.next] }, true)) ∨
    (p.activeChangeTrackers = 0 ∧ begins = false ∧ enter begins p =
      ({ connect p.next p with activeChangeTrackers := 1, next := p.next + 1 }, false)) ∨
    (p.activeChangeTrackers ≠ 0 ∧ enter begins p =
      ({ p with activeChangeTrackers := p.activeChangeTrackers + 1, next := p.next + 1 },
        false)) := by
  by_cases free : p.activeChangeTrackers = 0
  · cases begins with
    | true => exact .inl ⟨free, rfl, by simp [enter, free, connect]⟩
    | false => exact .inr (.inl ⟨free, rfl, by simp [enter, free, connect]⟩)
  · exact .inr (.inr ⟨free, by simp [enter, free]⟩)

private theorem exit_eq (tracker : Nat) (leaving : Leaving) (p : Process) :
    exit pchApi tracker leaving p =
      { p with
        activeChangeTrackers := p.activeChangeTrackers - 1
        receivers := none
        entered := p.entered.erase tracker
        finished := p.finished ++
          ((leaving.finishes pchApi).map fun outcome => (tracker, outcome)).toList } := by
  rw [exit]
  cases leaving.finishes pchApi with
  | none => simp [disconnect]
  | some outcome => simp [disconnect, finish]

private theorem sound_enter {p : Process} (sound : Sound p) (restored : Restored p) {begins : Bool}
    (handled : Handled pchApi p (.enter begins)) : Sound (enter begins p).1 := by
  obtain ⟨empty, begun⟩ := handled
  have free : p.activeChangeTrackers = 0 := by rw [restored.counted, empty, List.length_nil]
  have silent : p.receivers = none := by
    rw [← Option.not_isSome_iff_eq_none, restored.connected, empty]
    decide
  rcases enter_cases begins p with ⟨_, _, shape⟩ | ⟨_, failed, _⟩ | ⟨busy, _⟩
  · rw [shape]
    refine ⟨?_, ?_, ?_, ?_, ?_⟩
    · intro tracker member
      rcases List.mem_append.mp member with old | new
      · exact Nat.lt_succ_of_lt (sound.begun tracker old)
      · exact List.mem_singleton.mp new ▸ Nat.lt_succ_self _
    · exact fun entry member => Nat.lt_succ_of_lt (sound.finished entry member)
    · intro tracker member
      rcases List.mem_append.mp member with old | new
      · exact List.mem_append_left _ (sound.entered tracker old)
      · exact List.mem_append_right _ new
    · simp [empty]
    · simp [connect, silent, empty]
  · rw [failed] at begun
    cases begun
  · exact absurd free busy

private theorem sound_exit {p : Process} (sound : Sound p) {tracker : Nat}
    (member : tracker ∈ p.entered)
    (leaving : Leaving) : Sound (exit pchApi tracker leaving p) := by
  rw [exit_eq]
  refine ⟨sound.begun, ?_, ?_, ?_, ?_⟩
  · intro entry there
    rcases List.mem_append.mp there with old | new
    · exact sound.finished entry old
    · rw [Option.mem_toList, Option.map_eq_some_iff] at new
      obtain ⟨_, _, rfl⟩ := new
      exact sound.begun tracker (sound.entered tracker member)
  · exact fun other there => sound.entered other (List.mem_of_mem_erase there)
  · exact Nat.le_trans List.length_erase_le sound.single
  · intro other never
    cases never

private theorem collect_eq {p : Process} (sound : Sound p) : step pchApi p .collect = some p := by
  rw [step, if_neg]
  rw [Option.any_eq_true]
  rintro ⟨tracker, connected, gone⟩
  exact absurd (sound.owned tracker connected) (by simpa using gone)

private theorem sound_step {p p' : Process} {event : Event} (sound : Sound p)
    (restored : Restored p)
    (handled : Handled pchApi p event) (taken : step pchApi p event = some p') : Sound p' := by
  cases event with
  | enter begins =>
    obtain rfl := Option.some.inj taken
    exact sound_enter sound restored handled
  | exit tracker leaving =>
    rw [step, Option.ite_none_right_eq_some, Option.some.injEq] at taken
    obtain ⟨member, rfl⟩ := taken
    exact sound_exit sound member leaving
  | collect =>
    rw [collect_eq sound] at taken
    exact Option.some.inj taken ▸ sound

private theorem restored_enter_iff {p : Process} (sound : Sound p) (restored : Restored p)
    (begins : Bool) : Restored (enter begins p).1 ↔ Handled pchApi p (.enter begins) := by
  have free_iff : p.activeChangeTrackers = 0 ↔ p.entered = [] := by
    rw [restored.counted, List.length_eq_zero_iff]
  rcases enter_cases begins p with ⟨free, begun, shape⟩ | ⟨free, failed, shape⟩ | ⟨busy, shape⟩
  · have empty := free_iff.mp free
    rw [shape]
    refine ⟨fun _ => ⟨empty, begun⟩, fun _ => ⟨?_, ?_, ?_, ?_⟩⟩
    · simp [empty]
    · simp [connect, empty]
    · intro tracker member
      rcases List.mem_append.mp member with old | new
      · have earlier := sound.begun tracker old
        have other : tracker ≠ p.next := by omega
        simpa [empty, other, connect] using restored.finished tracker old
      · rw [List.mem_singleton.mp new]
        simpa [empty, connect] using countP_finished_of_le sound (Nat.le_refl _)
    · intro never
      exact absurd never (by simp)
  · have empty := free_iff.mp free
    rw [shape]
    constructor
    · intro after
      have counted := after.counted
      simp [connect, empty] at counted
    · intro handled
      rw [failed] at handled
      cases handled.2
  · rw [shape]
    constructor
    · intro after
      have counted := after.counted
      have before := restored.counted
      simp only at counted
      omega
    · intro handled
      exact absurd (free_iff.mpr handled.1) busy

private theorem restored_exit_iff {p : Process} (sound : Sound p) (restored : Restored p)
    {tracker : Nat}
    (member : tracker ∈ p.entered) (leaving : Leaving) :
    Restored (exit pchApi tracker leaving p) ↔ Handled pchApi p (.exit tracker leaving) := by
  have alone : p.entered = [tracker] := by
    obtain ⟨other, shape⟩ := List.length_eq_one_iff.mp
      (Nat.le_antisymm sound.single (List.length_pos_of_mem member))
    rw [shape] at member ⊢
    rw [List.mem_singleton.mp member]
  have pending := restored.finished tracker (sound.entered tracker member)
  rw [if_pos member] at pending
  rw [exit_eq, ← @finishes_isSome_iff _ p tracker leaving]
  constructor
  · intro after
    have closed := after.finished tracker (sound.entered tracker member)
    by_contra left
    rw [Option.not_isSome_iff_eq_none] at left
    simp [left, alone, pending] at closed
  · intro closes
    obtain ⟨outcome, finishes⟩ := Option.isSome_iff_exists.mp closes
    rw [finishes]
    refine ⟨?_, ?_, ?_, ?_⟩
    · simp [restored.counted, alone]
    · simp [alone]
    · intro other begun
      have before := restored.finished other begun
      by_cases same : other = tracker
      · subst same
        simp [alone, List.countP_append, pending]
      · have differs : tracker ≠ other := fun equal => same equal.symm
        simpa [alone, same, differs, List.countP_append] using before
    · intro _
      simp [enter, restored.counted, alone]

/-- From a process in order, a step keeps it in order exactly if the step is handled. -/
theorem restored_step_iff {p p' : Process} {event : Event} (sound : Sound p)
    (restored : Restored p) (taken : step pchApi p event = some p') :
    Restored p' ↔ Handled pchApi p event := by
  cases event with
  | enter begins =>
    obtain rfl := Option.some.inj taken
    exact restored_enter_iff sound restored begins
  | exit tracker leaving =>
    rw [step, Option.ite_none_right_eq_some, Option.some.injEq] at taken
    obtain ⟨member, rfl⟩ := taken
    exact restored_exit_iff sound restored member leaving
  | collect =>
    rw [collect_eq sound] at taken
    exact iff_of_true (Option.some.inj taken ▸ restored) trivial

/-- In every run, the bookkeeping is in order after every step exactly if every step is handled. -/
theorem restored_along_iff (pchApi : Bool) (events : List Event) :
    Along (step pchApi) (fun _ _ p' => Restored p') initial events ↔
      Along (step pchApi) (fun p event _ => Handled pchApi p event) initial events := by
  constructor
  · refine along_of_along (I := fun p => Sound p ∧ Restored p) ?_ ⟨sound_initial, restored_initial⟩
    intro p event p' ⟨sound, restored⟩ taken after
    have handled := (restored_step_iff sound restored taken).mp after
    exact ⟨handled, sound_step sound restored handled taken, after⟩
  · refine along_of_along (I := fun p => Sound p ∧ Restored p) ?_ ⟨sound_initial, restored_initial⟩
    intro p event p' ⟨sound, restored⟩ taken handled
    have after := (restored_step_iff sound restored taken).mpr handled
    exact ⟨after, sound_step sound restored handled taken, after⟩

/-- Three failures that leave something behind: the database is unreachable, and no tracker can be
entered any more; a tracker is entered within another one, and none can be entered after both; and
`_compute_changes` raises, and the transaction stays open. -/
theorem bookkeeping_lost :
    (∃ p, [Event.enter false].foldlM (step false) initial = some p ∧ ¬ Restored p ∧
      p.entered = [] ∧ (enter true p).2 = false) ∧
    (∃ p, [Event.enter true, .enter true, .exit 0 ⟨true, some [], true⟩].foldlM (step false)
        initial = some p ∧ ¬ Restored p ∧ p.entered = [] ∧ (enter true p).2 = false) ∧
    ∃ p, [Event.enter true, .exit 0 ⟨false, none, true⟩].foldlM (step false) initial = some p ∧
      ¬ Restored p ∧ 0 ∈ p.begun ∧ 0 ∉ p.entered ∧ p.finished = [] := by
  refine ⟨⟨_, rfl, ?_, rfl, rfl⟩, ⟨_, rfl, ?_, rfl, rfl⟩, ⟨_, rfl, ?_, ?_, ?_, rfl⟩⟩
  · intro after
    exact absurd after.counted (by decide)
  · intro after
    exact absurd after.counted (by decide)
  · intro after
    exact absurd (after.finished 0 (by decide)) (by decide)
  · decide
  · decide

end DesecStack.Changes.Bookkeeping
