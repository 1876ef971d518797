/- module: DesecStack/Library/SetOrder
   layer: library
   digest: Visiting orders for finite sets, which a loop over an unordered set leaves open. -/

import Mathlib.Data.Finset.Dedup
import Mathlib.Data.Finset.Insert
import Mathlib.Data.List.Perm.Basic
import Mathlib.Data.List.Sort

set_option autoImplicit false
set_option relaxedAutoImplicit false

namespace DesecStack.Library.SetOrder

/-- An order in which a loop over an unordered set meets its elements: each of them, once. -/
structure VisitOrder (α : Type*) where
  visit : Finset α → List α
  nodup (s : Finset α) : (visit s).Nodup
  mem_visit (s : Finset α) (a : α) : a ∈ visit s ↔ a ∈ s

section Sorted

variable {α β : Type*} [LinearOrder β]

/-- The order by keys that tell the elements apart. -/
def VisitOrder.sorted (key : α → β) (injective : Function.Injective key) : VisitOrder α where
  visit s := Quot.liftOn s.val (List.insertionSort fun a b => key a ≤ key b) fun l l' perm => by
    apply List.Perm.eq_of_pairwise 
    · intro a b _ _ first second
      exact injective (le_antisymm first second)
    · exact List.pairwise_insertionSort _ _
    · exact List.pairwise_insertionSort _ _
    · exact ((List.perm_insertionSort _ l).trans perm).trans (List.perm_insertionSort _ l').symm
  nodup s := by
    obtain ⟨⟨l⟩, nodup⟩ := s
    exact (List.perm_insertionSort _ l).nodup_iff.mpr nodup
  mem_visit s a := by
    obtain ⟨⟨l⟩, nodup⟩ := s
    exact (List.perm_insertionSort _ l).mem_iff

end Sorted

variable {α : Type*} (order : VisitOrder α)

noncomputable instance : Inhabited (VisitOrder α) :=
  ⟨⟨Finset.toList, Finset.nodup_toList, fun _ _ => Finset.mem_toList⟩⟩

@[simp] theorem mem_visit_iff (s : Finset α) (a : α) : a ∈ order.visit s ↔ a ∈ s :=
  order.mem_visit s a

@[simp] theorem visit_empty : order.visit ∅ = [] := by
  apply List.eq_nil_iff_forall_not_mem.mpr
  simp

@[simp] theorem visit_singleton (a : α) : order.visit {a} = [a] := by
  have nodup := order.nodup {a}
  have mem := order.mem_visit {a}
  match visited : order.visit {a} with
  | [] =>
    have member := (mem a).mpr (Finset.mem_singleton_self a)
    simp [visited] at member
  | [b] =>
    have member := (mem b).mp (by simp [visited])
    rw [Finset.mem_singleton.mp member]
  | b :: c :: rest =>
    have hb := Finset.mem_singleton.mp ((mem b).mp (by simp [visited]))
    have hc := Finset.mem_singleton.mp ((mem c).mp (by simp [visited]))
    subst hb
    simp [visited, hc] at nodup

private theorem filterMap_of_nodup {β : Type*} [DecidableEq α] (a : α) (b : β) {l : List α}
    (nodup : l.Nodup) :
    l.filterMap (fun c => if c = a then some b else none) = if a ∈ l then [b] else [] := by
  induction l with
  | nil => rfl
  | cons c l ih =>
    obtain ⟨absent, rest⟩ := List.nodup_cons.mp nodup
    by_cases same : c = a
    · subst same
      simp [ih rest, absent]
    · simp [ih rest, same, Ne.symm same]

theorem filterMap_visit {β : Type*} [DecidableEq α] (a : α) (b : β) (s : Finset α) :
    (order.visit s).filterMap (fun c => if c = a then some b else none)
      = if a ∈ s then [b] else [] := by
  simp [filterMap_of_nodup a b (order.nodup s)]

theorem exists_visit_eq {s : Finset α} {l : List α} (nodup : l.Nodup)
    (same : ∀ a, a ∈ l ↔ a ∈ s) : ∃ order : VisitOrder α, order.visit s = l := by
  classical
  refine ⟨⟨fun t => if t = s then l else t.toList, fun t => ?_, fun t a => ?_⟩, if_pos rfl⟩
  · split
    · exact nodup
    · exact t.nodup_toList
  · split
    next equal => rw [equal, same]
    next => exact Finset.mem_toList

theorem exists_perm_visit {β : Type*} {f : β → α} {l : List β} (nodup : (l.map f).Nodup)
    {s : Finset α} (same : ∀ a, a ∈ l.map f ↔ a ∈ s) :
    ∃ l' : List β, l'.Perm l ∧ l'.map f = order.visit s := by
  have perm : (order.visit s).Perm (l.map f) :=
    (List.perm_ext_iff_of_nodup (order.nodup s) nodup).mpr fun a => by
      rw [mem_visit_iff, same]
  have lifted := congrFun (congrFun (List.eq_map_comp_perm f) (order.visit s)) l
  obtain ⟨l', visited, reordered⟩ := lifted.mpr perm
  exact ⟨l', reordered, visited.symm⟩

end DesecStack.Library.SetOrder
