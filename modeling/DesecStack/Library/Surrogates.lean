/- module: DesecStack/Library/Surrogates
   layer: library
   digest: The strings of Python in full: texts, and those that hold a surrogate on its own. -/

import DesecStack.Library.PyText
import Mathlib.Algebra.Ring.Nat
import Mathlib.Data.Finset.Sort
import Mathlib.Data.List.Lex

set_option autoImplicit false
set_option relaxedAutoImplicit false

namespace DesecStack.Library.Surrogates

open Library.PyText

/-- A surrogate, counted from U+D800. It is no character, and UTF-8 has no form for it, but `str`
may hold it, and JSON can spell it. -/
abbrev Surrogate := Fin 0x800

abbrev CodePoint := Char ⊕ Surrogate

/-- A `str` with a surrogate in it. -/
structure Unencodable where
  points : List CodePoint
  holds : points.any Sum.isRight = true
  deriving DecidableEq

/-- A `str`. -/
inductive Str where
  | text (s : Text)
  | unencodable (s : Unencodable)
  deriving DecidableEq

def isSpacePoint : CodePoint → Bool
  | .inl c => isSpace c
  | .inr _ => false

private theorem any_dropWhile (points : List CodePoint) :
    (points.dropWhile isSpacePoint).any Sum.isRight = points.any Sum.isRight := by
  induction points with
  | nil => rfl
  | cons point points ih =>
    rw [List.dropWhile_cons]
    split
    · next space =>
      cases point with
      | inl c => rw [ih, List.any_cons, Sum.isRight_inl, Bool.false_or]
      | inr n => cases space
    · rfl

private def stripPoints (points : List CodePoint) : List CodePoint :=
  ((points.dropWhile isSpacePoint).reverse.dropWhile isSpacePoint).reverse

private theorem any_stripPoints (points : List CodePoint) :
    (stripPoints points).any Sum.isRight = points.any Sum.isRight := by
  rw [stripPoints, List.any_reverse, any_dropWhile, List.any_reverse, any_dropWhile]

/-- `s.strip()` -/
def Str.strip : Str → Str
  | .text s => .text (PyText.strip s)
  | .unencodable s => .unencodable ⟨stripPoints s.points, (any_stripPoints s.points).trans s.holds⟩

def Str.points : Str → List CodePoint
  | .text s => s.map .inl
  | .unencodable s => s.points

/-- `len(s)` -/
def Str.length : Str → Nat
  | .text s => s.length
  | .unencodable s => s.points.length

def Str.toText : Str → Option Text
  | .text s => some s
  | .unencodable _ => none

/-- A check that looks at a string piece by piece between its surrogates, such as a comparison with
its lowercase. -/
def Str.piecewise (check : Text → Bool) : Str → Bool
  | .text s => check s
  | .unencodable s => ((s.points.splitOnP Sum.isRight).map (List.filterMap Sum.getLeft?)).all check

/-- A match with a pattern that admits no surrogate. -/
def Str.matching (pattern : Text → Bool) : Str → Bool
  | .text s => pattern s
  | .unencodable _ => false

/-- `ord` -/
def code : CodePoint → Nat
  | .inl c => c.toNat
  | .inr n => 0xd800 + n

/-- `[ord(c) for c in s]` -/
def Str.codes (s : Str) : List Nat := s.points.map code

/-- A code point in a message: surrogates are shown by their escapes. -/
def showCode (n : Nat) : Text :=
  if 0xd800 ≤ n ∧ n < 0xe000 then '\\' :: 'u' :: Nat.toDigits 16 n else [Char.ofNat n]

/-- A string in a message. -/
def Str.shown : Str → Text
  | .text s => s
  | .unencodable s => (Str.unencodable s).codes.flatMap showCode

/-- `sorted(strs)`, in the order of code points, as shown in a message. -/
def sortedShown (strs : Finset Str) : List Text :=
  ((strs.image Str.codes).sort (· ≤ ·)).map fun codes => codes.flatMap showCode

/-- The first surrogate of a string. -/
def Str.surrogate? (s : Str) : Option Surrogate := s.points.findSome? Sum.getRight?

theorem Str.surrogate?_unencodable (s : Unencodable) : (Str.unencodable s).surrogate? ≠ none := by
  rw [surrogate?, points, Ne, List.findSome?_eq_none_iff]
  intro absent
  obtain ⟨point, inside, right⟩ := List.any_eq_true.mp s.holds
  cases point with
  | inl c => cases right
  | inr n => cases absent _ inside

@[simp] theorem Str.strip_text (s : Text) : (Str.text s).strip = .text (PyText.strip s) := rfl

@[simp] theorem Str.toText_text (s : Text) : (Str.text s).toText = some s := rfl

@[simp] theorem Str.length_text (s : Text) : (Str.text s).length = s.length := rfl

/-- A string that trims to a text is a text. -/
theorem Str.strip_eq_text_iff {s : Str} {trimmed : Text} :
    s.strip = .text trimmed ↔ ∃ t, s = .text t ∧ PyText.strip t = trimmed := by
  cases s with
  | text t => simp
  | unencodable s => simp [strip]

theorem strip_of_strip_eq {s : Str} {t : Text} (trimmed : s.strip = .text t) :
    PyText.strip t = t := by
  obtain ⟨raw, -, rfl⟩ := Str.strip_eq_text_iff.mp trimmed
  exact strip_strip raw

theorem Str.toText_eq_some_iff {s : Str} {t : Text} : s.toText = some t ↔ s = .text t := by
  cases s <;> simp [toText]

end DesecStack.Library.Surrogates
