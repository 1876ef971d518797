/- module: DesecStack/Library/PyText
   layer: library
   digest: Text as a sequence of characters, with the string methods of Python. -/

import Mathlib.Data.Finmap
import Mathlib.Data.List.Basic
import Mathlib.Data.List.DropRight
import Mathlib.Data.List.Infix
import Mathlib.Data.List.TakeWhile

set_option autoImplicit false
set_option relaxedAutoImplicit false

namespace DesecStack.Library.PyText

abbrev Text := List Char

instance instLawfulBEqText : LawfulBEq Text := inferInstance

/-- A Python dictionary, up to the order of its keys. -/
abbrev Dict (α β : Type*) := Finmap (fun _ : α => β)

/-- `str.isspace` of one character. -/
def isSpace (c : Char) : Bool :=
  let n := c.val.toNat
  (9 ≤ n && n ≤ 13) || (28 ≤ n && n ≤ 32) || n == 0x85 || n == 0xa0 || n == 0x1680 ||
    (0x2000 ≤ n && n ≤ 0x200a) || n == 0x2028 || n == 0x2029 || n == 0x202f ||
    n == 0x205f || n == 0x3000

def lstrip (s : Text) : Text := s.dropWhile isSpace

def rstrip (s : Text) : Text := (s.reverse.dropWhile isSpace).reverse

/-- `s.strip()` -/
def strip (s : Text) : Text := rstrip (lstrip s)

/-- `s.rstrip(c)` -/
def rstripChar (c : Char) (s : Text) : Text := (s.reverse.dropWhile (· == c)).reverse

/-- `s.strip(c)` -/
def stripChar (c : Char) (s : Text) : Text := rstripChar c (s.dropWhile (· == c))

/-- `sep.join(parts)` -/
def join (sep : Text) (parts : List Text) : Text := sep.intercalate parts

/-- `s.split(sep)` for a separator of one character. -/
def split (sep : Char) (s : Text) : List Text := s.splitOn sep

/-- `s.endswith(suffix)` -/
def endsWith (s suffix : Text) : Bool := suffix.isSuffixOf s

/-- `s.startswith(start)` -/
def startsWith (s start : Text) : Bool := start.isPrefixOf s

/-- `s.removeprefix(start)` -/
def removePrefix (s start : Text) : Text := if startsWith s start then s.drop start.length else s

/-- The parts before and after the last occurrence of a separator, if it occurs. -/
def lastSplit (sep : Text) : Text → Option (Text × Text)
  | [] => if sep = [] then some ([], []) else none
  | c :: s =>
      match lastSplit sep s with
      | some (before, after) => some (c :: before, after)
      | none => if sep <+: c :: s then some ([], (c :: s).drop sep.length) else none

/-- `s.rsplit(sep, 1)[0]` -/
def rsplitHead (sep s : Text) : Text := ((lastSplit sep s).map Prod.fst).getD s

/-- `s.rpartition(sep)[0]`, which is empty where the separator does not occur. -/
def rpartitionHead (sep s : Text) : Text := ((lastSplit sep s).map Prod.fst).getD []

/-- `s.rpartition(sep)[2]` -/
def rpartitionTail (sep s : Text) : Text := ((lastSplit sep s).map Prod.snd).getD s

/-- `s.partition(c)`: the parts before and after the first occurrence, if it occurs. -/
def partition (c : Char) (s : Text) : Text × Option Text :=
  (s.takeWhile (· != c), if c ∈ s then some ((s.dropWhile (· != c)).drop 1) else none)

/-- The ASCII characters, and the four others that a case-insensitive pattern takes for
ASCII letters: dotted capital I, dotless i, the Kelvin sign and long s. -/
def isPlain (c : Char) : Bool :=
  let n := c.val.toNat
  n < 128 || n == 0x130 || n == 0x131 || n == 0x212a || n == 0x17f

def lowerPlain (c : Char) : Text :=
  if c.val.toNat = 0x130 then ['i', Char.ofNat 0x307]
  else if c.val.toNat = 0x212a then ['k']
  else [c.toLower]

def upperPlain (c : Char) : Text :=
  if c.val.toNat = 0x131 then ['I']
  else if c.val.toNat = 0x17f then ['S']
  else [c.toUpper]

/-- The Unicode tables behind `str.lower`, `str.upper` and `int`. Only their values on plain
characters are fixed here. -/
structure Unicode where
  lower : Text → Text
  upper : Text → Text
  decimal : Char → Option Nat
  lower_plain (s : Text) (plain : ∀ c ∈ s, isPlain c = true) : lower s = s.flatMap lowerPlain
  upper_plain (s : Text) (plain : ∀ c ∈ s, isPlain c = true) : upper s = s.flatMap upperPlain
  decimal_plain (c : Char) (plain : isPlain c = true) :
    decimal c = if c.isDigit then some (c.val.toNat - 48) else none

/-- The tables that leave all other characters alone. -/
def Unicode.plain : Unicode where
  lower s := s.flatMap lowerPlain
  upper s := s.flatMap upperPlain
  decimal c := if c.isDigit then some (c.val.toNat - 48) else none
  lower_plain _ _ := rfl
  upper_plain _ _ := rfl
  decimal_plain _ _ := rfl

/-- Digits with single underscores between them, read onto what was read before. -/
def readDigits (unicode : Unicode) : Nat → Text → Option Nat
  | _, [] => none
  | read, [c] => (unicode.decimal c).map (10 * read + ·)
  | read, c :: '_' :: d :: s =>
      (unicode.decimal c).bind fun n => readDigits unicode (10 * read + n) (d :: s)
  | read, c :: s => (unicode.decimal c).bind fun n => readDigits unicode (10 * read + n) s

/-- `int(s)`; `none` is `ValueError`. -/
def toInt (unicode : Unicode) (s : Text) : Option Int :=
  match strip s with
  | '-' :: digits => (readDigits unicode 0 digits).map fun n => -(n : Int)
  | '+' :: digits => (readDigits unicode 0 digits).map Int.ofNat
  | digits => (readDigits unicode 0 digits).map Int.ofNat

/-- `str(n)` -/
def ofInt (n : Int) : Text := (toString n).toList

theorem ofInt_natCast (n : Nat) : ofInt n = Nat.toDigits 10 n := by
  show (Nat.repr n).toList = _
  rw [Nat.repr, String.toList_ofList]

theorem ofInt_natCast_injective : Function.Injective (fun n : Nat => ofInt n) := by
  intro m n same
  have digits : Nat.toDigits 10 m = Nat.toDigits 10 n := by
    rw [← ofInt_natCast, ← ofInt_natCast]
    exact same
  have value := congrArg (Nat.ofDigitChars 10 · 0) digits
  simpa using value

example : toInt Unicode.plain " -3_600 ".toList = some (-3600) := by decide

@[simp] theorem endsWith_iff {s suffix : Text} : endsWith s suffix = true ↔ suffix <:+ s := by
  simp [endsWith]

@[simp] theorem startsWith_iff {s start : Text} : startsWith s start = true ↔ start <+: s := by
  simp [startsWith]

theorem forall_mem_of_all {p : Char → Prop} [DecidablePred p] {s : Text}
    (all : s.all (fun c => decide (p c)) = true) : ∀ c ∈ s, p c := fun c inside =>
  of_decide_eq_true (List.all_eq_true.mp all c inside)

/-- Every character other than the separator is in one of the parts. -/
theorem exists_part_of_mem {sep c : Char} (other : c ≠ sep) :
    ∀ {s : Text}, c ∈ s → ∃ part ∈ split sep s, c ∈ part := by
  intro s
  induction s with
  | nil => intro member; exact absurd member List.not_mem_nil
  | cons d s ih =>
    intro member
    obtain ⟨head, tail, parts⟩ := List.exists_cons_of_ne_nil (List.splitOn_ne_nil sep s)
    by_cases same : d = sep
    · have later : c ∈ s := by
        rcases List.mem_cons.mp member with rfl | later
        · exact absurd same other
        · exact later
      obtain ⟨part, found, inside⟩ := ih later
      refine ⟨part, ?_, inside⟩
      rw [split, List.splitOn_cons_eq_if_modifyHead]
      simpa [same, split] using Or.inr found
    · have whole : split sep (d :: s) = (d :: head) :: tail := by
        rw [split, List.splitOn_cons_eq_if_modifyHead, parts]
        simp [same]
      rw [whole]
      rcases List.mem_cons.mp member with rfl | later
      · exact ⟨c :: head, List.mem_cons_self .., List.mem_cons_self ..⟩
      · obtain ⟨part, found, inside⟩ := ih later
        rw [split, parts] at found
        rcases List.mem_cons.mp found with rfl | found
        · exact ⟨d :: part, List.mem_cons_self .., List.mem_cons_of_mem _ inside⟩
        · exact ⟨part, List.mem_cons_of_mem _ found, inside⟩

theorem mem_of_mem_part {sep c : Char} {s part : Text} (found : part ∈ split sep s)
    (inside : c ∈ part) : c ∈ s := by
  induction s generalizing part with
  | nil =>
    rw [split, List.splitOn_nil, List.mem_singleton] at found
    exact found ▸ inside
  | cons d s ih =>
    obtain ⟨head, tail, parts⟩ := List.exists_cons_of_ne_nil (List.splitOn_ne_nil sep s)
    rw [split, List.splitOn_cons_eq_if_modifyHead, parts] at found
    rw [split, parts] at ih
    split at found
    · rcases List.mem_cons.mp found with rfl | later
      · exact absurd inside List.not_mem_nil
      · exact List.mem_cons_of_mem d (ih later inside)
    · rcases List.mem_cons.mp found with rfl | later
      · rcases List.mem_cons.mp inside with rfl | after
        · exact List.mem_cons_self
        · exact List.mem_cons_of_mem d (ih List.mem_cons_self after)
      · exact List.mem_cons_of_mem d (ih (List.mem_cons_of_mem head later) inside)

theorem split_of_not_mem {sep : Char} {s : Text} (absent : sep ∉ s) : split sep s = [s] :=
  List.splitOn_eq_singleton absent

private theorem mem_dropWhile {p : Char → Bool} {s : Text} {c : Char} (inside : c ∈ s)
    (kept : p c = false) : c ∈ s.dropWhile p := by
  induction s with
  | nil => exact inside
  | cons d s ih =>
    rw [List.dropWhile_cons]
    split
    · rename_i dropped
      rcases List.mem_cons.mp inside with rfl | later
      · rw [kept] at dropped
        exact absurd dropped Bool.false_ne_true
      · exact ih later
    · exact inside

/-- Stripping removes no character that is not whitespace. -/
theorem mem_strip {s : Text} {c : Char} (inside : c ∈ s) (visible : isSpace c = false) :
    c ∈ strip s := by
  rw [strip, rstrip, List.mem_reverse]
  apply mem_dropWhile _ visible
  rw [List.mem_reverse]
  exact mem_dropWhile inside visible

theorem mem_of_mem_strip {s : Text} {c : Char} (inside : c ∈ strip s) : c ∈ s := by
  rw [strip, rstrip, List.mem_reverse] at inside
  have back := List.mem_reverse.mp ((List.dropWhile_suffix isSpace).subset inside)
  exact (List.dropWhile_suffix isSpace).subset back

theorem strip_eq_self {s : Text} (visible : ∀ c ∈ s, isSpace c = false) : strip s = s := by
  have kept {t : Text} (inside : ∀ c ∈ t, c ∈ s) : t.dropWhile isSpace = t := by
    rw [List.dropWhile_eq_self_iff]
    intro some
    simp [visible _ (inside _ (List.getElem_mem some))]
  rw [strip, lstrip, kept fun _ => id, rstrip, kept fun _ => List.mem_reverse.mp,
    List.reverse_reverse]

theorem strip_strip (s : Text) : strip (strip s) = strip s := by
  have right : rstrip (strip s) = strip s := by
    rw [strip, rstrip, rstrip, List.reverse_reverse, List.dropWhile_idempotent]
  have left : lstrip (strip s) = strip s := by
    have stop := List.head?_dropWhile_not isSpace s
    have whole : strip s <+: lstrip s := by
      rw [strip, rstrip, ← List.reverse_suffix, List.reverse_reverse]
      exact List.dropWhile_suffix isSpace
    obtain ⟨rest, same⟩ := whole
    rw [← lstrip, ← same] at stop
    rw [lstrip]
    cases stripped : strip s with
    | nil => rfl
    | cons c back =>
      rw [stripped] at stop
      exact List.dropWhile_cons_of_neg (by simpa using stop)
  rw [strip, left, right]

private theorem dropWhile_map {p : Char → Bool} {f : Char → Char} {s : Text}
    (kept : ∀ c ∈ s, p (f c) = p c) : (s.map f).dropWhile p = (s.dropWhile p).map f := by
  induction s with
  | nil => rfl
  | cons c s ih =>
    rw [List.map_cons, List.dropWhile_cons, List.dropWhile_cons, kept c List.mem_cons_self]
    split
    · exact ih fun d later => kept d (List.mem_cons_of_mem c later)
    · rfl

theorem strip_map {f : Char → Char} {s : Text} (kept : ∀ c ∈ s, isSpace (f c) = isSpace c) :
    strip (s.map f) = (strip s).map f := by
  rw [strip, strip, rstrip, rstrip, lstrip, lstrip, dropWhile_map kept, ← List.map_reverse,
    dropWhile_map, List.map_reverse]
  intro c inside
  exact kept c ((List.dropWhile_sublist isSpace).mem (List.mem_reverse.mp inside))

theorem mem_removePrefix {s start : Text} {c : Char} (inside : c ∈ s) (other : c ∉ start) :
    c ∈ removePrefix s start := by
  rw [removePrefix]
  split
  · rename_i begins
    obtain ⟨rest, rfl⟩ := startsWith_iff.mp begins
    rw [List.drop_left]
    exact (List.mem_append.mp inside).resolve_left other
  · exact inside

theorem split_map {sep : Char} {f : Char → Char} (kept : ∀ c, f c = sep ↔ c = sep) (s : Text) :
    split sep (s.map f) = (split sep s).map (List.map f) := by
  induction s with
  | nil => simp [split]
  | cons c s ih =>
    obtain ⟨head, tail, parts⟩ := List.exists_cons_of_ne_nil (List.splitOn_ne_nil sep s)
    rw [split] at ih ⊢
    rw [split, List.map_cons, List.splitOn_cons_eq_if_modifyHead,
      List.splitOn_cons_eq_if_modifyHead, ih]
    by_cases same : c = sep
    · simp [same, (kept sep).mpr rfl, split]
    · simp [same, kept, split, parts]

/-- A translation of characters that leaves a text as it is leaves each character as it is. -/
theorem flatMap_eq_self_iff {f : Char → Text} (nonempty : ∀ c, f c ≠ []) {s : Text} :
    s.flatMap f = s ↔ ∀ c ∈ s, f c = [c] := by
  have grows : ∀ s : Text, s.length ≤ (s.flatMap f).length := by
    intro s
    induction s with
    | nil => exact Nat.le_refl 0
    | cons c s ih =>
      have one := List.length_pos_of_ne_nil (nonempty c)
      rw [List.flatMap_cons, List.length_append, List.length_cons]
      omega
  induction s with
  | nil => simp
  | cons c s ih =>
    rw [List.forall_mem_cons, List.flatMap_cons]
    constructor
    · intro same
      have lengths := congrArg List.length same
      rw [List.length_append, List.length_cons] at lengths
      have one := List.length_pos_of_ne_nil (nonempty c)
      have rest := grows s
      have single : (f c).length = 1 := by omega
      obtain ⟨d, head⟩ := List.length_eq_one_iff.mp single
      rw [head, List.singleton_append, List.cons.injEq] at same
      exact ⟨by rw [head, same.1], ih.mp same.2⟩
    · intro characters
      rw [characters.1, ih.mpr characters.2, List.singleton_append]

theorem rstripChar_of_not_endsWith {c : Char} {s : Text} (h : ¬ [c] <:+ s) :
    rstripChar c s = s := by
  unfold rstripChar
  cases reversed : s.reverse with
  | nil => simpa using (List.reverse_eq_nil_iff.mp reversed).symm
  | cons d rest =>
    have shape : s = rest.reverse ++ [d] := by
      simpa using congrArg List.reverse reversed
    have differs : (d == c) = false := by
      simp only [beq_eq_false_iff_ne, ne_eq]
      rintro rfl
      exact h ⟨rest.reverse, shape.symm⟩
    simp [differs, shape]

theorem lastSplit_append {sep : Text} (nonempty : sep ≠ []) (s : Text) :
    lastSplit sep (s ++ sep) = some (s, []) := by
  have self : lastSplit sep sep = some ([], []) := by
    have short : ∀ t : Text, t.length < sep.length → lastSplit sep t = none := by
      intro t
      induction t with
      | nil => intro _; simp [lastSplit, nonempty]
      | cons d t ih =>
        intro shorter
        have tail := ih (by simp only [List.length_cons] at shorter; omega)
        have unfit : ¬ sep <+: d :: t := fun h => by
          have := h.length_le
          omega
        simp [lastSplit, tail, unfit]
    cases sep with
    | nil => exact absurd rfl nonempty
    | cons d sep => simp [lastSplit, short sep (by simp)]
  induction s with
  | nil => simpa using self
  | cons c s ih => simp [lastSplit, ih]

theorem lastSplit_of_not_mem {c : Char} {s : Text} (absent : c ∉ s) : lastSplit [c] s = none := by
  induction s with
  | nil => simp [lastSplit]
  | cons d s ih =>
    rw [List.mem_cons, not_or] at absent
    have unfit : ¬ [c] <+: d :: s := fun h => absent.1 (List.cons_prefix_cons.mp h).1
    rw [lastSplit, ih absent.2]
    exact if_neg unfit

theorem lastSplit_append_cons {c : Char} {after : Text} (absent : c ∉ after) (before : Text) :
    lastSplit [c] (before ++ c :: after) = some (before, after) := by
  induction before with
  | nil =>
    rw [List.nil_append, lastSplit, lastSplit_of_not_mem absent]
    simp
  | cons d before ih => rw [List.cons_append, lastSplit, ih]

theorem exists_last_of_mem {c : Char} {s : Text} (inside : c ∈ s) :
    ∃ before after, s = before ++ c :: after ∧ c ∉ after := by
  induction s with
  | nil => cases inside
  | cons d s ih =>
    by_cases later : c ∈ s
    · obtain ⟨before, after, rfl, absent⟩ := ih later
      exact ⟨d :: before, after, rfl, absent⟩
    · obtain rfl : c = d := by simpa [later] using inside
      exact ⟨[], s, rfl, later⟩

section Join

variable {sep x y : Text} {xs ys : List Text}

@[simp] theorem join_singleton : join sep [x] = x := List.intercalate_singleton

theorem join_cons_cons : join sep (x :: y :: ys) = x ++ sep ++ join sep (y :: ys) :=
  List.intercalate_cons_cons

theorem join_append (nonempty : xs ≠ []) (others : ys ≠ []) :
    join sep (xs ++ ys) = join sep xs ++ sep ++ join sep ys := by
  induction xs with
  | nil => exact absurd rfl nonempty
  | cons x xs ih =>
    cases xs with
    | nil =>
      obtain ⟨y, ys, rfl⟩ := List.exists_cons_of_ne_nil others
      rw [List.singleton_append, join_cons_cons, join_singleton]
    | cons x' xs =>
      have rest := ih (List.cons_ne_nil _ _)
      rw [List.cons_append] at rest
      rw [List.cons_append, List.cons_append, join_cons_cons, rest, join_cons_cons]
      simp only [List.append_assoc]

theorem mem_join {c : Char} (member : c ∈ join sep xs) : c ∈ sep ∨ ∃ part ∈ xs, c ∈ part := by
  induction xs with
  | nil => cases member
  | cons x xs ih =>
    cases xs with
    | nil => exact .inr ⟨x, List.mem_cons_self, by simpa using member⟩
    | cons y ys =>
      rw [join_cons_cons, List.mem_append, List.mem_append] at member
      rcases member with (first | between) | rest
      · exact .inr ⟨x, List.mem_cons_self, first⟩
      · exact .inl between
      · rcases ih rest with between | ⟨part, there, inside⟩
        · exact .inl between
        · exact .inr ⟨part, List.mem_cons_of_mem _ there, inside⟩

end Join

end DesecStack.Library.PyText
