/- module: DesecStack/Library/Slices
   layer: library
   digest: Cutting a list into slices of one length, as a loop over a range with a step does. -/

import Mathlib.Data.List.Basic
import Mathlib.Data.Nat.Init

set_option autoImplicit false
set_option relaxedAutoImplicit false

namespace DesecStack.Library.Slices

variable {α : Type*}

/-- `range(0, stop, step)` -/
def steps (stop step : Nat) : List Nat := List.range' 0 ((stop + step - 1) / step) step

/-- The slices of length `k`, beginning at every multiple of `k`; one empty slice of nothing. -/
def slices (k : Nat) (l : List α) : List (List α) :=
  (steps (max l.length 1) k).map (fun i => (l.drop i).take k)

theorem length_slices (k : Nat) (l : List α) :
    (slices k l).length = (max l.length 1 + k - 1) / k := by
  simp [slices, steps]

variable {k : Nat}

theorem slices_of_le {l : List α} (positive : 0 < k) (short : l.length ≤ k) :
    slices k l = [l] := by
  have once : (max l.length 1 + k - 1) / k = 1 := by
    rw [Nat.div_eq_iff positive]
    omega
  simp only [slices, steps, once, List.range'_one, List.map_cons, List.map_nil, List.drop_zero,
    List.take_of_length_le short]

private theorem slices_of_lt {l : List α} (positive : 0 < k) (long : k < l.length) :
    slices k l = l.take k :: slices k (l.drop k) := by
  have count : (max l.length 1 + k - 1) / k = (max (l.drop k).length 1 + k - 1) / k + 1 := by
    rw [← Nat.add_div_right _ positive, List.length_drop]
    congr 1
    omega
  rw [slices, slices, steps, steps, count, List.range'_succ, List.map_cons, List.drop_zero]
  congr 1
  rw [show 0 + k = k + 0 by omega, ← List.map_add_range', List.map_map]
  apply List.map_congr_left
  intro i _
  rw [Function.comp_apply, List.drop_drop]

private theorem slices_induction {P : List α → Prop} (positive : 0 < k)
    (last : ∀ l, l.length ≤ k → P l) (more : ∀ l, k < l.length → P (l.drop k) → P l)
    (l : List α) : P l := by
  induction same : l.length using Nat.strong_induction_on generalizing l with
  | h size ih =>
    by_cases short : l.length ≤ k
    · exact last l short
    · have long : k < l.length := by omega
      have rest : (l.drop k).length < size := by
        rw [List.length_drop]
        omega
      exact more l long (ih _ rest (l.drop k) rfl)

theorem flatten_slices (positive : 0 < k) (l : List α) : (slices k l).flatten = l := by
  induction l using slices_induction positive with
  | last l short => rw [slices_of_le positive short, List.flatten_singleton]
  | more l long ih => rw [slices_of_lt positive long, List.flatten_cons, ih, List.take_append_drop]

private theorem slices_ne_nil (positive : 0 < k) (l : List α) : slices k l ≠ [] := by
  rw [← List.length_pos_iff, length_slices]
  apply Nat.div_pos _ positive
  omega

theorem length_le_of_mem_slices {l part : List α}
    (inside : part ∈ slices k l) : part.length ≤ k := by
  obtain ⟨start, -, rfl⟩ := List.mem_map.mp inside
  exact List.length_take_le k _

theorem length_of_mem_dropLast_slices (positive : 0 < k) (l : List α) :
    ∀ part ∈ (slices k l).dropLast, part.length = k := by
  induction l using slices_induction positive with
  | last l short =>
    rw [slices_of_le positive short]
    intro part inside
    exact absurd inside List.not_mem_nil
  | more l long ih =>
    rw [slices_of_lt positive long, List.dropLast_cons_of_ne_nil (slices_ne_nil positive _)]
    intro part inside
    rcases List.mem_cons.mp inside with rfl | later
    · rw [List.length_take]
      omega
    · exact ih part later

theorem ne_nil_of_mem_slices (positive : 0 < k) (l : List α) (something : l ≠ []) :
    ∀ part ∈ slices k l, part ≠ [] := by
  induction l using slices_induction positive with
  | last l short =>
    rw [slices_of_le positive short]
    intro part inside
    exact List.mem_singleton.mp inside ▸ something
  | more l long ih =>
    rw [slices_of_lt positive long]
    have rest : l.drop k ≠ [] := by
      rw [← List.length_pos_iff, List.length_drop]
      omega
    intro part inside
    rcases List.mem_cons.mp inside with rfl | later
    · rw [← List.length_pos_iff, List.length_take]
      omega
    · exact ih rest part later

theorem flatMap_slices_slices (positive : 0 < k) (l : List α) :
    (slices k l).flatMap (slices k) = slices k l := by
  have whole : ∀ part ∈ slices k l, slices k part = [part] := fun part inside =>
    slices_of_le positive (length_le_of_mem_slices inside)
  rw [List.flatMap_congr whole]
  exact List.flatMap_singleton' _

end DesecStack.Library.Slices
