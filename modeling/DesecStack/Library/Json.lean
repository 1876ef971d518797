/- module: DesecStack/Library/Json
   layer: library
   digest: Encodings that can be told apart wherever they start, and lists of scalars as JSON. -/

import DesecStack.Library.PyText

set_option autoImplicit false
set_option relaxedAutoImplicit false

namespace DesecStack.Library.Json

open PyText (Text join)

section PrefixFree

variable {α β : Type}

/-- What starts with an encoding starts with no other. -/
def PrefixFree (encode : α → List β) : Prop :=
  ∀ a b s t, encode a ++ s = encode b ++ t → a = b ∧ s = t

variable {encode : α → List β}

private theorem PrefixFree.append_left (free : PrefixFree encode) (sep : List β) :
    PrefixFree fun a => sep ++ encode a := by
  intro a b s t same
  rw [List.append_assoc, List.append_assoc] at same
  exact free a b s t (List.append_cancel_left same)

private theorem PrefixFree.flatMap_cons (free : PrefixFree encode) {stop : β}
    (starts : ∀ a, ∃ first rest, encode a = first :: rest ∧ first ≠ stop) {s t : List β} :
    ∀ xs ys : List α, xs.flatMap encode ++ stop :: s = ys.flatMap encode ++ stop :: t →
      xs = ys ∧ s = t := by
  intro xs
  induction xs with
  | nil =>
    intro ys same
    cases ys with
    | nil => exact ⟨rfl, (List.cons.inj same).2⟩
    | cons y ys =>
      obtain ⟨first, rest, start, other⟩ := starts y
      rw [List.flatMap_nil, List.nil_append, List.flatMap_cons, start] at same
      exact absurd (List.cons.inj same).1.symm other
  | cons x xs ih =>
    intro ys same
    cases ys with
    | nil =>
      obtain ⟨first, rest, start, other⟩ := starts x
      rw [List.flatMap_nil, List.nil_append, List.flatMap_cons, start] at same
      exact absurd (List.cons.inj same).1 other
    | cons y ys =>
      simp only [List.flatMap_cons, List.append_assoc] at same
      obtain ⟨rfl, rest⟩ := free x y _ _ same
      obtain ⟨rfl, tail⟩ := ih ys rest
      exact ⟨rfl, tail⟩

private theorem PrefixFree.flatMap_injective (free : PrefixFree encode)
    (nonempty : ∀ a, encode a ≠ []) :
    Function.Injective fun xs : List α => xs.flatMap encode := by
  intro xs
  induction xs with
  | nil =>
    intro ys same
    cases ys with
    | nil => rfl
    | cons y ys => exact absurd (List.append_eq_nil_iff.mp same.symm).1 (nonempty y)
  | cons x xs ih =>
    intro ys same
    cases ys with
    | nil => exact absurd (List.append_eq_nil_iff.mp same).1 (nonempty x)
    | cons y ys =>
      obtain ⟨rfl, rest⟩ := free x y _ _ same
      rw [ih rest]

end PrefixFree

/-- What `json` can write, other than numbers, lists and dictionaries. -/
inductive Value where
  | text (text : Text)
  | bool (bool : Bool)
  | null
  deriving DecidableEq

/-- A hexadecimal digit -/
def hexDigit (n : Nat) : Char := if n < 10 then Char.ofNat (48 + n) else Char.ofNat (87 + n)

/-- `'\\u{0:04x}'.format(n)` -/
def unicodeEscape (n : Nat) : Text :=
  ['\\', 'u', hexDigit (n / 4096 % 16), hexDigit (n / 256 % 16), hexDigit (n / 16 % 16),
    hexDigit (n % 16)]

/-- The short forms of `ESCAPE_DCT`. -/
def shortEscapes : List (Nat × Char) :=
  [(92, '\\'), (34, '"'), (8, 'b'), (12, 'f'), (10, 'n'), (13, 'r'), (9, 't')]

/-- What `py_encode_basestring_ascii` writes for a code unit. -/
def escapeUnit (unit : UInt16) : Text :=
  match shortEscapes.lookup unit.toNat with
  | some letter => ['\\', letter]
  | none =>
    if 32 ≤ unit.toNat ∧ unit.toNat ≤ 126 then [Char.ofNat unit.toNat]
    else unicodeEscape unit.toNat

/-- A character, or its surrogate pair. -/
def utf16 (c : Char) : List UInt16 :=
  let n := c.toNat
  if n < 0x10000 then [.ofNat n]
  else [.ofNat (0xd800 + (n - 0x10000) / 0x400), .ofNat (0xdc00 + (n - 0x10000) % 0x400)]

def quote (text : Text) : Text := '"' :: ((text.flatMap utf16).flatMap escapeUnit ++ ['"'])

def encode : Value → Text
  | .text text => quote text
  | .bool true => "true".toList
  | .bool false => "false".toList
  | .null => "null".toList

/-- `json.dumps` of a list -/
def dumps (values : List Value) : Text := '[' :: (join ", ".toList (values.map encode) ++ [']'])

section Units

private theorem hexDigit_inj : ∀ m < 16, ∀ n < 16, hexDigit m = hexDigit n → m = n := by decide

private theorem unicodeEscape_append_inj {m n : Nat} (small : m < 0x10000) (small' : n < 0x10000)
    {s t : Text} (same : unicodeEscape m ++ s = unicodeEscape n ++ t) : m = n ∧ s = t := by
  simp only [unicodeEscape, List.cons_append, List.nil_append, List.cons.injEq, true_and] at same
  have digit (a b : Nat) (equal : hexDigit (a % 16) = hexDigit (b % 16)) : a % 16 = b % 16 :=
    hexDigit_inj _ (Nat.mod_lt a (by omega)) _ (Nat.mod_lt b (by omega)) equal
  obtain ⟨first, second, third, fourth, rest⟩ := same
  have first := digit _ _ first
  have second := digit _ _ second
  have third := digit _ _ third
  have fourth := digit _ _ fourth
  exact ⟨by omega, rest⟩

private theorem toNat_ofNat_of_le : ∀ n ≤ 126, (Char.ofNat n).toNat = n := by decide

private theorem shortEscapes_inj : ∀ one ∈ shortEscapes, ∀ other ∈ shortEscapes,
    one.2 = other.2 → one.1 = other.1 := by decide

private theorem shortEscapes_ne : ∀ escape ∈ shortEscapes, escape.2 ≠ 'u' := by decide

private theorem escapeUnit_cases (unit : UInt16) :
    (∃ letter, (unit.toNat, letter) ∈ shortEscapes ∧ escapeUnit unit = ['\\', letter]) ∨
      (∃ c : Char, c.toNat = unit.toNat ∧ c ≠ '\\' ∧ c ≠ '"' ∧ escapeUnit unit = [c]) ∨
      escapeUnit unit = unicodeEscape unit.toNat := by
  rw [escapeUnit]
  cases short : shortEscapes.lookup unit.toNat with
  | some letter =>
    refine .inl ⟨letter, ?_, rfl⟩
    obtain ⟨before, after, split, _⟩ := List.lookup_eq_some_iff.mp short
    rw [split]
    exact List.mem_append_right _ List.mem_cons_self
  | none =>
    right
    have long := List.lookup_eq_none_iff.mp short
    by_cases printable : 32 ≤ unit.toNat ∧ unit.toNat ≤ 126
    · left
      have value : (Char.ofNat unit.toNat).toNat = unit.toNat :=
        toNat_ofNat_of_le _ printable.2
      refine ⟨Char.ofNat unit.toNat, value, ?_, ?_, if_pos printable⟩
      · intro backslash
        have := long (92, '\\') (by decide)
        rw [← value, backslash] at this
        simp at this
      · intro mark
        have := long (34, '"') (by decide)
        rw [← value, mark] at this
        simp at this
    · exact .inr (if_neg printable)

private theorem escapeUnit_prefixFree : PrefixFree escapeUnit := by
  intro m n s t same
  suffices equal : m.toNat = n.toNat ∧ s = t from ⟨UInt16.toNat_inj.mp equal.1, equal.2⟩
  rcases escapeUnit_cases m with ⟨letter, short, form⟩ | ⟨c, value, slash, _, form⟩ | form <;>
  rcases escapeUnit_cases n with ⟨letter', short', form'⟩ | ⟨d, value', slash', _, form'⟩ | form'
  · rw [form, form'] at same
    simp only [List.cons_append, List.nil_append, List.cons.injEq, true_and] at same
    exact ⟨shortEscapes_inj _ short _ short' same.1, same.2⟩
  · rw [form, form'] at same
    exact absurd (List.cons.inj same).1.symm slash'
  · rw [form, form'] at same
    simp only [unicodeEscape, List.cons_append, List.cons.injEq, true_and] at same
    exact absurd same.1 (shortEscapes_ne _ short)
  · rw [form, form'] at same
    exact absurd (List.cons.inj same).1 slash
  · rw [form, form'] at same
    obtain ⟨rfl, rest⟩ := List.cons.inj same
    exact ⟨value.symm.trans value', rest⟩
  · rw [form, form'] at same
    exact absurd (List.cons.inj same).1 slash
  · rw [form, form'] at same
    simp only [unicodeEscape, List.cons_append, List.cons.injEq, true_and] at same
    exact absurd same.1.symm (shortEscapes_ne _ short')
  · rw [form, form'] at same
    exact absurd (List.cons.inj same).1.symm slash'
  · rw [form, form'] at same
    exact unicodeEscape_append_inj m.toNat_lt n.toNat_lt same

private theorem escapeUnit_start (unit : UInt16) :
    ∃ first rest, escapeUnit unit = first :: rest ∧ first ≠ '"' := by
  rcases escapeUnit_cases unit with ⟨letter, _, form⟩ | ⟨c, _, _, mark, form⟩ | form
  · exact ⟨_, _, form, by decide⟩
  · exact ⟨_, _, form, mark⟩
  · exact ⟨_, _, form, by decide⟩

private theorem utf16_prefixFree : PrefixFree utf16 := by
  intro c d s t same
  have small (n : Nat) (lt : n < 0x10000) : (UInt16.ofNat n).toNat = n :=
    UInt16.toNat_ofNat_of_lt' lt
  have scalar (c : Char) : c.toNat < 0xd800 ∨ 0xdfff < c.toNat ∧ c.toNat < 0x110000 := c.valid
  have equal (m n : Nat) (lt : m < 0x10000) (lt' : n < 0x10000)
      (units : UInt16.ofNat m = UInt16.ofNat n) : m = n := by
    rw [← small m lt, ← small n lt', units]
  suffices numbers : c.toNat = d.toNat ∧ s = t from ⟨Char.toNat_inj.mp numbers.1, numbers.2⟩
  have one := scalar c
  have other := scalar d
  simp only [utf16] at same
  split at same <;> split at same <;>
    simp only [List.cons_append, List.nil_append, List.cons.injEq] at same
  · exact ⟨equal _ _ (by omega) (by omega) same.1, same.2⟩
  · have high := equal _ _ (by omega) (by omega) same.1
    omega
  · have high := equal _ _ (by omega) (by omega) same.1
    omega
  · have high := equal _ _ (by omega) (by omega) same.1
    have low := equal _ _ (by omega) (by omega) same.2.1
    exact ⟨by omega, same.2.2⟩

private theorem utf16_ne_nil (c : Char) : utf16 c ≠ [] := by
  simp only [utf16]
  split <;> exact List.cons_ne_nil _ _

end Units

private theorem quote_prefixFree : PrefixFree quote := by
  intro a b s t same
  simp only [quote, List.cons_append, List.append_assoc, List.nil_append, List.cons.injEq,
    true_and] at same
  obtain ⟨units, rest⟩ := escapeUnit_prefixFree.flatMap_cons escapeUnit_start _ _ same
  exact ⟨utf16_prefixFree.flatMap_injective utf16_ne_nil units, rest⟩

private theorem encode_prefixFree : PrefixFree encode := by
  intro a b s t same
  rcases a with a | (_ | _) | _ <;> rcases b with b | (_ | _) | _
  case text.text =>
    obtain ⟨texts, rest⟩ := quote_prefixFree a b s t same
    exact ⟨congrArg Value.text texts, rest⟩
  all_goals simp_all [encode, quote]

private theorem encode_start (value : Value) :
    ∃ first rest, encode value = first :: rest ∧ first ≠ ']' := by
  rcases value with text | (_ | _) | _ <;> exact ⟨_, _, rfl, by decide⟩

private theorem join_cons (sep head : Text) (parts : List Text) :
    join sep (head :: parts) = head ++ parts.flatMap (sep ++ ·) := by
  induction parts generalizing head with
  | nil => simp [join]
  | cons part parts ih =>
    have rest := ih part
    rw [join] at rest
    rw [join, List.intercalate_cons_cons, rest, List.flatMap_cons, List.append_assoc,
      List.append_assoc]

theorem dumps_injective : Function.Injective dumps := by
  intro xs ys same
  replace same := (List.cons.inj same).2
  cases xs with
  | nil =>
    cases ys with
    | nil => rfl
    | cons y ys =>
      obtain ⟨first, rest, start, other⟩ := encode_start y
      rw [List.map_cons, join_cons, start] at same
      exact absurd (List.cons.inj same).1.symm other
  | cons x xs =>
    cases ys with
    | nil =>
      obtain ⟨first, rest, start, other⟩ := encode_start x
      rw [List.map_cons, join_cons, start] at same
      exact absurd (List.cons.inj same).1 other
    | cons y ys =>
      simp only [List.map_cons, join_cons, List.flatMap_map, List.append_assoc] at same
      obtain ⟨rfl, rest⟩ := encode_prefixFree x y _ _ same
      have separated := encode_prefixFree.append_left ", ".toList
      have starts (value : Value) : ∃ first rest,
          ", ".toList ++ encode value = first :: rest ∧ first ≠ ']' := ⟨_, _, rfl, by decide⟩
      rw [(separated.flatMap_cons starts xs ys rest).1]

example : dumps [.text "a\"é😀".toList, .bool true, .null] =
    "[\"a\\\"\\u00e9\\ud83d\\ude00\", true, null]".toList := by decide

end DesecStack.Library.Json
