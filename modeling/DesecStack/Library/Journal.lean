/- module: DesecStack/Library/Journal
   layer: library
   digest: One key of a store whose changes go to three pending sets and are replayed later. -/

import Mathlib.Data.Option.Basic
import Mathlib.Data.List.Basic

set_option autoImplicit false
set_option relaxedAutoImplicit false

namespace DesecStack.Library.Journal

/-- What a store announces about one of its keys. -/
inductive Event where
  | created
  | modified
  | deleted
  deriving DecidableEq, Repr

/-- The pending sets a key is in. -/
structure Mark where
  added : Bool
  modified : Bool
  deleted : Bool
  deriving DecidableEq, Repr

namespace Mark

def clean : Mark := ⟨false, false, false⟩

/-- One announcement. `none` is a failed assertion of the journal: a key created while
pending as modified, or modified while pending as deleted. -/
def record (m : Mark) : Event → Option Mark
  | .created => if m.modified then none else some { m with added := true, deleted := false }
  | .modified => if m.deleted then none else some { m with modified := true }
  | .deleted =>
      if m.added then some { m with added := false, modified := false }
      else some { m with modified := false, deleted := true }

def recordAll (events : List Event) : Option Mark := events.foldlM record clean

private theorem recordAll_append_single (events : List Event) (e : Event) :
    recordAll (events ++ [e]) = (recordAll events).bind fun m => m.record e := by
  simp [recordAll, List.foldlM_append]

end Mark

variable {V : Type*}

/-- The values one key runs through. A created key holds a blank value at first; only a
modification announces another one. -/
inductive Life (blank : V → Bool) (start : Option V) : List Event → Option V → Prop where
  | start : Life blank start [] start
  | created {events : List Event} {v : V} (life : Life blank start events none)
      (fresh : blank v = true) : Life blank start (events ++ [.created]) (some v)
  | modified {events : List Event} {v : V} (w : V) (life : Life blank start events (some v)) :
      Life blank start (events ++ [.modified]) (some w)
  | deleted {events : List Event} {v : V} (life : Life blank start events (some v)) :
      Life blank start (events ++ [.deleted]) none

theorem Life.modified_all {blank : V → Bool} {start : Option V} {v : V} {news : List Event}
    (all : ∀ e ∈ news, e = .modified) :
    ∀ {events : List Event}, Life blank start events (some v) →
      Life blank start (events ++ news) (some v) := by
  induction news with
  | nil => intro events life; simpa using life
  | cons e news ih =>
    intro events life
    obtain rfl := all e (List.mem_cons_self ..)
    have later := ih (fun e member => all e (List.mem_cons_of_mem _ member)) (life.modified v)
    simpa using later

theorem Life.of_nil {blank : V → Bool} {start value : Option V} {events : List Event}
    (life : Life blank start events value) (silent : events = []) : value = start := by
  cases life with
  | start => rfl
  | created life fresh => exact absurd silent (by simp)
  | modified w life => exact absurd silent (by simp)
  | deleted life => exact absurd silent (by simp)

/-- How the pending sets of a key relate to its history. -/
structure Agrees (blank : V → Bool) (start : Option V) (events : List Event)
    (value : Option V) (m : Mark) : Prop where
  added_present : m.added = true → value.isSome ∧ .created ∈ events
  modified_present : m.modified = true → value.isSome
  deleted_absent : m.deleted = true → value = none ∧ start.isSome ∧ .created ∉ events
  kept : ∀ v, value = some v → m.added = false →
    start.isSome ∧ .created ∉ events ∧ (m.modified = false → start = some v)
  fresh : ∀ v, value = some v → m.added = true → m.modified = false → blank v = true
  last_modified : m.modified = true ↔ events.getLast? = some .modified
  gone : value = none → m.deleted = false → start = none ∨ .created ∈ events

private theorem agrees_clean (blank : V → Bool) (start : Option V) :
    Agrees blank start [] start Mark.clean where
  added_present := by simp [Mark.clean]
  modified_present := by simp [Mark.clean]
  deleted_absent := by simp [Mark.clean]
  kept := by simp +contextual [Mark.clean]
  fresh := by simp [Mark.clean]
  last_modified := by simp [Mark.clean]
  gone := fun absent _ => Or.inl absent

theorem recordAll_of_life {blank : V → Bool} {start value : Option V} {events : List Event}
    (life : Life blank start events value) :
    ∃ m, Mark.recordAll events = some m ∧ Agrees blank start events value m := by
  induction life with
  | start => exact ⟨Mark.clean, rfl, agrees_clean blank start⟩
  | @created events v life fresh ih =>
    obtain ⟨m, recorded, agrees⟩ := ih
    have unmodified : m.modified = false := by
      by_contra h
      simpa using agrees.modified_present (by simpa using h)
    refine ⟨{ m with added := true, deleted := false }, ?_, ?_⟩
    · simp [Mark.recordAll_append_single, recorded, Mark.record, unmodified]
    · constructor <;> simp_all
  | @modified events v w life ih =>
    obtain ⟨m, recorded, agrees⟩ := ih
    have undeleted : m.deleted = false := by
      by_contra h
      simpa using (agrees.deleted_absent (by simpa using h)).1
    refine ⟨{ m with modified := true }, ?_, ?_⟩
    · simp [Mark.recordAll_append_single, recorded, Mark.record, undeleted]
    · have kept := agrees.kept v rfl
      have created := fun h => (agrees.added_present h).2
      constructor <;> simp_all
  | @deleted events v life ih =>
    obtain ⟨m, recorded, agrees⟩ := ih
    have undeleted : m.deleted = false := by
      by_contra h
      simpa using (agrees.deleted_absent (by simpa using h)).1
    have kept := agrees.kept v rfl
    cases added : m.added with
    | true =>
      have created := (agrees.added_present added).2
      refine ⟨{ m with added := false, modified := false }, ?_, ?_⟩
      · simp [Mark.recordAll_append_single, recorded, Mark.record, added]
      · constructor <;> simp_all
    | false =>
      refine ⟨{ m with modified := false, deleted := true }, ?_, ?_⟩
      · simp [Mark.recordAll_append_single, recorded, Mark.record, added]
      · constructor <;> simp_all

/-- What a reader of the store sees of a value: blank values do not show. -/
def shown (blank : V → Bool) (value : Option V) : Option V := value.filter fun v => !blank v

/-- The journal is replayed for a key that is pending as deleted or modified, and for an
added one that shows. -/
def announced (blank : V → Bool) (value : Option V) (m : Mark) : Bool :=
  m.deleted || m.modified || (m.added && (shown blank value).isSome)

/-- What the replica shows after the replay, having shown `start` before. -/
def replayed (blank : V → Bool) (start value : Option V) (m : Mark) : Option V :=
  if announced blank value m then shown blank value else shown blank start

/-- A key that showed at the start and was created again must end on a modification. -/
def Settled (blank : V → Bool) (start : Option V) (events : List Event) : Prop :=
  (shown blank start).isSome → .created ∈ events → events.getLast? = some .modified

private theorem unreplayed_iff {blank : V → Bool} {start value : Option V}
    {events : List Event} {m : Mark} (quiet : announced blank value m = false)
    (hidden : shown blank value = none)
    (gone : start = none ∨ .created ∈ events) (last : events.getLast? ≠ some .modified) :
    replayed blank start value m = shown blank value ↔ Settled blank start events := by
  unfold replayed Settled
  simp only [quiet, hidden, Bool.false_eq_true, if_false, last, imp_false]
  rcases gone with absent | created
  · simp [absent, shown]
  · simp [created, Option.isSome_iff_ne_none]

/-- The replica catches up with the store exactly at the settled keys: pending sets keep no
trace of the value a re-created key had before it was deleted. -/
theorem replayed_eq_iff {blank : V → Bool} {start value : Option V} {events : List Event}
    {m : Mark} (agrees : Agrees blank start events value m) :
    replayed blank start value m = shown blank value ↔ Settled blank start events := by
  cases modified : m.modified with
  | true =>
    have last := agrees.last_modified.mp modified
    simp [replayed, Settled, announced, modified, last]
  | false =>
    have last : events.getLast? ≠ some .modified := fun h => by
      simpa [modified] using agrees.last_modified.mpr h
    cases deleted : m.deleted with
    | true =>
      have uncreated := (agrees.deleted_absent deleted).2.2
      simp [replayed, Settled, announced, deleted, uncreated]
    | false =>
      cases value with
      | none =>
        have unadded : m.added = false := by
          by_contra h
          simpa using (agrees.added_present (by simpa using h)).1
        exact unreplayed_iff (by simp [announced, modified, deleted, unadded]) rfl
          (agrees.gone rfl deleted) last
      | some v =>
        cases added : m.added with
        | true =>
          have hidden : shown blank (some v) = none := by
            simp [shown, agrees.fresh v rfl added modified]
          exact unreplayed_iff (by simp [announced, modified, deleted, hidden]) hidden
            (Or.inr (agrees.added_present added).2) last
        | false =>
          obtain ⟨-, uncreated, same⟩ := agrees.kept v rfl added
          simp [replayed, Settled, announced, modified, deleted, added, uncreated,
            same modified]

/-- The pending sets of a key that only comes and goes. -/
structure Flip where
  added : Bool
  deleted : Bool
  deriving DecidableEq, Repr

namespace Flip

def clean : Flip := ⟨false, false⟩

/-- One announcement that the key came (`true`) or went. -/
def record (f : Flip) : Bool → Flip
  | true => if f.deleted then { f with deleted := false } else { f with added := true }
  | false => if f.added then { f with added := false } else { f with deleted := true }

/-- The state of a key against its state at the start. -/
def between (start now : Bool) : Flip := ⟨now && !start, start && !now⟩

theorem between_self (start : Bool) : between start start = clean := by
  cases start <;> rfl

theorem record_between (start now : Bool) :
    (between start !now).record now = between start now := by
  cases start <;> cases now <;> rfl

end Flip

end DesecStack.Library.Journal
