/- module: DesecStack/Library/Window
   layer: library
   digest: Sliding windows over a history of times, and the limits that they enforce. -/

import Mathlib.Algebra.Order.Group.Defs
import Mathlib.Algebra.Order.Group.Basic
import Mathlib.Data.List.DropRight

set_option autoImplicit false
set_option relaxedAutoImplicit false

namespace DesecStack.Library.Window

variable {T : Type*} [AddCommGroup T] [LinearOrder T]

/-- The times of a history that lie after `now - d`. -/
def recent (d now : T) (history : List T) : List T := history.filter (fun u => now - d < u)

private theorem recent_append (d now : T) (first last : List T) :
    recent d now (first ++ last) = recent d now first ++ recent d now last :=
  List.filter_append first last

theorem recent_cons (d now u : T) (history : List T) :
    recent d now (u :: history) = recent d now [u] ++ recent d now history :=
  recent_append d now [u] history

theorem rdropWhile_eq_recent {d now : T} {history : List T} (latest : history.Pairwise (· ≥ ·)) :
    history.rdropWhile (fun u => u ≤ now - d) = recent d now history := by
  induction history using List.reverseRecOn with
  | nil => rfl
  | append_singleton history u ih =>
    obtain ⟨before, -, after⟩ := List.pairwise_append.mp latest
    by_cases old : u ≤ now - d
    · have dropped : recent d now [u] = [] := by simpa [recent] using old
      rw [List.rdropWhile_concat_pos _ _ _ (by simpa using old), ih before, recent_append, dropped,
        List.append_nil]
    · rw [List.rdropWhile_concat_neg _ _ _ (by simpa using old), eq_comm]
      apply List.filter_eq_self.mpr
      intro v inside
      have fresh : now - d < u := not_le.mp old
      rcases List.mem_append.mp inside with earlier | last
      · exact decide_eq_true (fresh.trans_le (after v earlier u (List.mem_singleton_self u)))
      · exact decide_eq_true (List.mem_singleton.mp last ▸ fresh)

theorem recent_recent {d d' now now' : T} (later : now - d ≤ now' - d') (history : List T) :
    recent d' now' (recent d now history) = recent d' now' history := by
  rw [recent, recent, List.filter_filter, recent]
  apply List.filter_congr
  intro u _
  have kept : now' - d' < u → now - d < u := fun fresh => later.trans_lt fresh
  simpa using kept

theorem recent_eq_nil {d now : T} {history : List T} (past : ∀ u ∈ history, u ≤ now - d) :
    recent d now history = [] := by
  rw [recent, List.filter_eq_nil_iff]
  intro u inside
  simpa using past u inside

/-- Each time of a history, latest first, found fewer than `n` times in its window. -/
def Limited (n : Nat) (d : T) : List T → Prop
  | [] => True
  | u :: history => (recent d u history).length < n ∧ Limited n d history

theorem length_le_of_limited [IsOrderedAddMonoid T] {n : Nat} {d : T} {short : T → Bool}
    (close : ∀ u v, short u = true → short v = true → u - v < d) :
    ∀ {history : List T}, Limited n d history → (history.filter short).length ≤ n := by
  intro history limited
  induction history with
  | nil => exact Nat.zero_le n
  | cons u history ih =>
    obtain ⟨fewer, rest⟩ := limited
    by_cases inside : short u = true
    · have within : (history.filter short).Sublist (recent d u history) := by
        apply List.monotone_filter_right
        intro v chosen
        have apart := close u v inside chosen
        exact decide_eq_true (sub_lt_comm.mp apart)
      rw [List.filter_cons_of_pos inside, List.length_cons]
      have counted := within.length_le
      omega
    · rw [List.filter_cons_of_neg inside]
      exact ih rest

end DesecStack.Library.Window
