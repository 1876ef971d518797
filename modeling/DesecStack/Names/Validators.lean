/- module: DesecStack/Names/Validators
   source: api/desecapi/models/base.py, api/desecapi/models/records.py
   digest: The validators of domain names, subnames and RRset types. -/

import DesecStack.Library.PyText

set_option autoImplicit false
set_option relaxedAutoImplicit false

namespace DesecStack.Names.Validators

open Library.PyText

variable (unicode : Unicode)

def validateLower (value : Text) : Bool := value == unicode.lower value

def validateUpper (value : Text) : Bool := value == unicode.upper value

def isLowerAscii (c : Char) : Bool := 'a' ≤ c && c ≤ 'z'

def isUpperAscii (c : Char) : Bool := 'A' ≤ c && c ≤ 'Z'

def isDigitAscii (c : Char) : Bool := '0' ≤ c && c ≤ '9'

/-- `[a-z]` under `re.IGNORECASE`, for a pattern on `str`. -/
def foldsToLetter (c : Char) : Bool :=
  isPlain c && (isLowerAscii c || isUpperAscii c || !(c.val.toNat < 128))

/-- A part of the text matched by `cls{1,63}` -/
def component (cls : Char → Bool) (part : Text) : Bool :=
  1 ≤ part.length && part.length ≤ 63 && part.all cls

/-- The pattern anchor `$` also matches before one newline at the very end. -/
def beforeFinalNewline (s : Text) : List Text :=
  if s.getLast? = some '\n' then [s, s.dropLast] else [s]

/-- `^(([a-z0-9_-]{1,63})\.)*[a-z0-9-]{1,63}$` with `re.IGNORECASE` -/
def domainNamePattern (value : Text) : Bool :=
  (beforeFinalNewline value).any fun s =>
    let parts := split '.' s
    parts.dropLast.all (component fun c =>
      foldsToLetter c || isDigitAscii c || c == '_' || c == '-') &&
    (parts.getLast?.any (component fun c => foldsToLetter c || isDigitAscii c || c == '-'))

def validateDomainName (value : Text) : Bool :=
  validateLower unicode value && domainNamePattern value

def subnameChar (c : Char) : Bool :=
  isLowerAscii c || isDigitAscii c || c == '_' || c == '-'

/-- `^([*]|(([*][.])?([a-z0-9_-]{1,63}[.])*[a-z0-9_-]{1,63}))$` -/
def subnamePattern (value : Text) : Bool :=
  (beforeFinalNewline value).any fun s =>
    s == ['*'] || (split '.' (removePrefix s ['*', '.'])).all (component subnameChar)

def validateSubname (value : Text) : Bool := validateLower unicode value && subnamePattern value

/-- `^[A-Z][A-Z0-9]*$` -/
def typePattern (value : Text) : Bool :=
  (beforeFinalNewline value).any fun s =>
    s.head?.any isUpperAscii && s.all fun c => isUpperAscii c || isDigitAscii c

def validateType (value : Text) : Bool := validateUpper unicode value && typePattern value

theorem not_endsWith_dot {value : Text} (valid : validateDomainName unicode value = true) :
    ¬ ['.'] <:+ value := by
  rintro ⟨start, rfl⟩
  have pattern : domainNamePattern (start ++ ['.']) = true := by
    simp only [validateDomainName, Bool.and_eq_true] at valid
    exact valid.2
  have whole : beforeFinalNewline (start ++ ['.']) = [start ++ ['.']] := by
    simp [beforeFinalNewline]
  have parts : split '.' (start ++ ['.']) = split '.' start ++ [[]] := by
    have := List.splitOn_append_cons_self (a := '.') start []
    simpa [split, List.splitOn_nil] using this
  simp [domainNamePattern, whole, parts, component] at pattern

theorem ne_nil {value : Text} (valid : validateDomainName unicode value = true) : value ≠ [] := by
  rintro rfl
  simp only [validateDomainName, Bool.and_eq_true] at valid
  exact absurd valid.2 (by decide)

theorem mem_domainName {value : Text} (valid : validateDomainName unicode value = true) {c : Char}
    (member : c ∈ value) :
    c = '.' ∨ c = '\n' ∨
      (foldsToLetter c || isDigitAscii c || c == '_' || c == '-') = true := by
  simp only [validateDomainName, Bool.and_eq_true, domainNamePattern, List.any_eq_true] at valid
  obtain ⟨-, s, matched, heads, last⟩ := valid
  have inside : c = '\n' ∨ c ∈ s := by
    unfold beforeFinalNewline at matched
    split at matched
    case isTrue final =>
      rcases List.mem_pair.mp matched with rfl | rfl
      · exact Or.inr member
      · have whole := List.dropLast_append_getLast? _ final
        rw [← whole] at member
        simpa [or_comm] using member
    case isFalse => exact Or.inr (List.mem_singleton.mp matched ▸ member)
  rcases inside with newline | inside
  · exact Or.inr (Or.inl newline)
  · by_cases dot : c = '.'
    · exact Or.inl dot
    · obtain ⟨part, found, inside⟩ := exists_part_of_mem dot inside
      refine Or.inr (Or.inr ?_)
      have nonempty : split '.' s ≠ [] := List.splitOn_ne_nil '.' s
      rw [← List.dropLast_append_getLast nonempty, List.mem_append, List.mem_singleton] at found
      rcases found with front | rfl
      · have := List.all_eq_true.mp heads part front
        simp only [component, Bool.and_eq_true, List.all_eq_true] at this
        exact this.2 c inside
      · rw [List.getLast?_eq_some_getLast nonempty] at last
        simp only [Option.any_some, component, Bool.and_eq_true, List.all_eq_true] at last
        have := last.2 c inside
        simp only [Bool.or_eq_true] at this ⊢
        tauto

end DesecStack.Names.Validators
