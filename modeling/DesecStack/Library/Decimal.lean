/- module: DesecStack/Library/Decimal
   layer: library
   digest: Decimal digits: which texts write a number, with or without leading zeros. -/

import DesecStack.Library.PyText
import Mathlib.Data.List.TakeWhile

set_option autoImplicit false
set_option relaxedAutoImplicit false

namespace DesecStack.Library.Decimal

open PyText (Text)

/-- The number without leading zeros. -/
def decimal (n : Nat) : Text := Nat.toDigits 10 n

/-- One or more digits. -/
def isDigits (s : Text) : Bool := s ≠ [] && s.all Char.isDigit

/-- The number that digits stand for. -/
def number (s : Text) : Nat := Nat.ofDigitChars 10 s 0

theorem isDigits_iff {s : Text} : isDigits s = true ↔ s ≠ [] ∧ ∀ c ∈ s, c.isDigit = true := by
  simp [isDigits]

private theorem digitChar_toNat : ∀ d < 10, (Nat.digitChar d).toNat = 48 + d := by decide

private theorem decimal_digit {c : Char} (digit : c.isDigit = true) :
    decimal (c.toNat - 48) = [c] := by
  have bounds : 48 ≤ c.toNat ∧ c.toNat ≤ 57 := Char.isDigit_iff_toNat.mp digit
  have small : c.toNat - 48 < 10 := by omega
  have same : (Nat.digitChar (c.toNat - 48)).toNat = c.toNat := by
    rw [digitChar_toNat _ small]
    omega
  rw [decimal, Nat.toDigits_of_lt_base small, Char.toNat_inj.mp same]

private theorem decimal_append : ∀ (s : Text) (n : Nat), 0 < n → (∀ c ∈ s, c.isDigit = true) →
    decimal n ++ s = decimal (Nat.ofDigitChars 10 s n) := by
  intro s
  induction s with
  | nil =>
    intro n _ _
    rw [List.append_nil, Nat.ofDigitChars_nil]
  | cons c s ih =>
    intro n positive digits
    obtain ⟨digit, rest⟩ := List.forall_mem_cons.mp digits
    have bounds : 48 ≤ c.toNat ∧ c.toNat ≤ 57 := Char.isDigit_iff_toNat.mp digit
    have step : decimal n ++ [c] = decimal (10 * n + (c.toNat - 48)) := by
      rw [← decimal_digit digit]
      exact Nat.toDigits_append_toDigits (by omega) positive (by omega)
    rw [Nat.ofDigitChars_cons, ← ih _ (by omega) rest, ← List.singleton_append,
      ← List.append_assoc, step]
    rfl

private theorem decimal_number {c : Char} {s : Text} (digits : isDigits (c :: s) = true)
    (head : c ≠ '0') :
    decimal (number (c :: s)) = c :: s := by
  obtain ⟨digit, rest⟩ := List.forall_mem_cons.mp (isDigits_iff.mp digits).2
  have bounds : 48 ≤ c.toNat ∧ c.toNat ≤ 57 := Char.isDigit_iff_toNat.mp digit
  have other : c.toNat ≠ 48 := fun zero => head (Char.toNat_inj.mp zero)
  have positive : 0 < c.toNat - 48 := by omega
  calc decimal (number (c :: s)) = decimal (Nat.ofDigitChars 10 s (c.toNat - 48)) := by
        rw [number, Nat.ofDigitChars_cons, Nat.mul_zero, Nat.zero_add]
        rfl
    _ = decimal (c.toNat - 48) ++ s := (decimal_append s _ positive rest).symm
    _ = c :: s := by rw [decimal_digit digit, List.singleton_append]

@[simp] theorem number_decimal (n : Nat) : number (decimal n) = n := Nat.ofDigitChars_ten_toDigits

theorem isDigits_decimal (n : Nat) : isDigits (decimal n) = true :=
  isDigits_iff.mpr ⟨Nat.toDigits_ne_nil, fun _ member =>
    Nat.isDigit_of_mem_toDigits (by omega) (by omega) member⟩

private theorem number_zero_cons (s : Text) : number ('0' :: s) = number s := by
  rw [number, Nat.ofDigitChars_cons]
  rfl

private theorem isDigits_tail {c : Char} {s : Text} (digits : isDigits (c :: s) = true)
    (more : s ≠ []) :
    isDigits s = true :=
  isDigits_iff.mpr ⟨more, fun d member =>
    (isDigits_iff.mp digits).2 d (List.mem_cons_of_mem c member)⟩

private theorem length_decimal_number_le {s : Text} (digits : isDigits s = true) :
    (decimal (number s)).length ≤ s.length := by
  induction s with
  | nil => exact absurd rfl (isDigits_iff.mp digits).1
  | cons c s ih =>
    by_cases zero : c = '0'
    · subst zero
      rw [number_zero_cons]
      by_cases more : s = []
      · subst more
        decide
      · exact (ih (isDigits_tail digits more)).trans (Nat.le_succ _)
    · rw [decimal_number digits zero]

private theorem decimal_head {n : Nat} {s : Text} (starts : decimal n = '0' :: s) : s = [] := by
  by_contra more
  have digits : isDigits ('0' :: s) = true := starts ▸ isDigits_decimal n
  have value : number s = n := by rw [← number_zero_cons, ← starts, number_decimal]
  have short := length_decimal_number_le (isDigits_tail digits more)
  rw [value, starts, List.length_cons] at short
  omega

/-- The numbers up to a bound, written without leading zeros. -/
theorem exists_decimal_iff (bound : Nat) (s : Text) :
    (∃ n ≤ bound, s = decimal n) ↔
      isDigits s = true ∧ ¬ (1 < s.length ∧ ['0'] <+: s) ∧ number s ≤ bound := by
  constructor
  · rintro ⟨n, le, rfl⟩
    refine ⟨isDigits_decimal n, ?_, by rwa [number_decimal]⟩
    rintro ⟨long, rest, whole⟩
    have single : rest = [] := decimal_head (show decimal n = '0' :: rest from whole.symm)
    rw [← whole, single] at long
    exact absurd long (by decide)
  · rintro ⟨digits, plain, le⟩
    cases s with
    | nil => exact absurd rfl (isDigits_iff.mp digits).1
    | cons c s =>
      by_cases zero : c = '0'
      · subst zero
        cases s with
        | nil => exact ⟨0, Nat.zero_le _, rfl⟩
        | cons d s => exact absurd ⟨by simp, ⟨d :: s, rfl⟩⟩ plain
      · exact ⟨number (c :: s), le, (decimal_number digits zero).symm⟩

/-- The numbers up to a bound, with any number of zeros in front. -/
theorem exists_padded_iff (bound : Nat) (s : Text) :
    (∃ zeros, ∃ n ≤ bound, s = List.replicate zeros '0' ++ decimal n) ↔
      isDigits s = true ∧ number s ≤ bound := by
  constructor
  · rintro ⟨zeros, n, le, rfl⟩
    obtain ⟨some, digits⟩ := isDigits_iff.mp (isDigits_decimal n)
    refine ⟨isDigits_iff.mpr ⟨by simp [some], fun c member => ?_⟩, ?_⟩
    · rcases List.mem_append.mp member with zero | digit
      · rw [List.eq_of_mem_replicate zero]
        rfl
      · exact digits c digit
    · rw [number, Nat.ofDigitChars_append, Nat.ofDigitChars_replicate_zero, Nat.mul_zero]
      exact (number_decimal n).trans_le le
  · rintro ⟨digits, le⟩
    induction s with
    | nil => exact absurd rfl (isDigits_iff.mp digits).1
    | cons c s ih =>
      by_cases zero : c = '0'
      · subst zero
        by_cases more : s = []
        · subst more
          exact ⟨0, 0, Nat.zero_le _, rfl⟩
        · rw [number_zero_cons] at le
          obtain ⟨zeros, n, within, rfl⟩ := ih (isDigits_tail digits more) le
          exact ⟨zeros + 1, n, within, rfl⟩
      · exact ⟨0, number (c :: s), le, (decimal_number digits zero).symm⟩

end DesecStack.Library.Decimal
