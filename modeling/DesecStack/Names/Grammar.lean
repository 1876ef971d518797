/- module: DesecStack/Names/Grammar
   source: api/desecapi/models/base.py 7-34, api/desecapi/pdns.py 137-143
   digest: The grammar of domain names, and which other texts the validators accept. -/

import DesecStack.Changes.Pdns

set_option autoImplicit false
set_option relaxedAutoImplicit false

namespace DesecStack.Names.Grammar

open Library.PyText
open Validators
open Changes.Pdns (pdnsId idPattern zoneId pdnsId_eq zoneId_injective)

/-! ### Documented names -/

/-- `a-z`, `0-9`, `-` and `_` -/
def labelChar (c : Char) : Bool := isLowerAscii c || isDigitAscii c || c == '-' || c == '_'

/-- One to 63 of these characters. -/
def Label (label : Text) : Prop :=
  1 ≤ label.length ∧ label.length ≤ 63 ∧ ∀ c ∈ label, labelChar c = true

/-- The documented domain names: labels separated by dots, the last without an underscore. -/
def Documented (s : Text) : Prop :=
  ∃ labels last, s = join ['.'] (labels ++ [last]) ∧ (∀ label ∈ labels, Label label) ∧
    Label last ∧ '_' ∉ last

private theorem not_mem_of_label {label : Text} (valid : Label label) : '.' ∉ label := fun dot =>
  absurd (valid.2.2 '.' dot) (by decide)

private theorem documented_iff_split (s : Text) :
    Documented s ↔ (∀ label ∈ (split '.' s).dropLast, Label label) ∧
      ∀ last ∈ (split '.' s).getLast?, Label last ∧ '_' ∉ last := by
  constructor
  · intro documented
    obtain ⟨labels, last, whole, valid, final⟩ := documented
    have undotted : ∀ label ∈ labels ++ [last], '.' ∉ label := by
      intro label inside
      rcases List.mem_append.mp inside with front | back
      · exact not_mem_of_label (valid label front)
      · exact List.mem_singleton.mp back ▸ not_mem_of_label final.1
    have parts : split '.' s = labels ++ [last] := by
      rw [whole]
      exact List.splitOn_intercalate '.' undotted (by simp)
    rw [parts, List.dropLast_concat, List.getLast?_concat]
    refine ⟨valid, ?_⟩
    intro other same
    exact Option.mem_some.mp same ▸ final
  · intro parts
    have nonempty : split '.' s ≠ [] := List.splitOn_ne_nil '.' s
    refine ⟨(split '.' s).dropLast, (split '.' s).getLast nonempty, ?_, parts.1,
      parts.2 _ (List.getLast?_eq_some_getLast nonempty)⟩
    rw [List.dropLast_append_getLast]
    exact (List.intercalate_splitOn '.').symm

/-! ### Characters -/

/-- `U+0131` and `U+017F`: lowercase letters outside ASCII that a case-insensitive pattern takes
for an ASCII letter. -/
def dotlessI : Char := Char.ofNat 0x131

def longS : Char := Char.ofNat 0x17f

/-- The ASCII letter that such a letter is taken for. -/
def folded (c : Char) : Char := if c = dotlessI then 'i' else if c = longS then 's' else c

def labelPattern (c : Char) : Bool :=
  foldsToLetter c || isDigitAscii c || c == '_' || c == '-'

private theorem not_of_high {c : Char} (high : 128 ≤ c.toNat) :
    isLowerAscii c = false ∧ isUpperAscii c = false ∧ isDigitAscii c = false := by
  simp only [isLowerAscii, isUpperAscii, isDigitAscii, Bool.and_eq_false_iff,
    decide_eq_false_iff_not]
  refine ⟨Or.inr ?_, Or.inr ?_, Or.inr ?_⟩
  · intro (le : c.toNat ≤ 122)
    omega
  · intro (le : c.toNat ≤ 90)
    omega
  · intro (le : c.toNat ≤ 57)
    omega

/-- What holds of ASCII, of the four other plain letters and of everything that no character
class of a name has, holds of every character. -/
theorem forall_char {P : Char → Prop} (ascii : ∀ n < 128, P (Char.ofNat n))
    (letters : ∀ n ∈ [0x130, 0x131, 0x17f, 0x212a], P (Char.ofNat n))
    (others : ∀ c, isPlain c = false → folded c = c → labelChar c = false → c ≠ '.' →
      labelPattern c = false → P c) (c : Char) : P c := by
  by_cases low : c.toNat < 128
  · have named := ascii c.toNat low
    rwa [Char.ofNat_toNat] at named
  by_cases letter : c.toNat ∈ [0x130, 0x131, 0x17f, 0x212a]
  · have named := letters c.toNat letter
    rwa [Char.ofNat_toNat] at named
  have differs {n : Nat} (code : (Char.ofNat n).toNat = n)
      (listed : n < 128 ∨ n ∈ [0x130, 0x131, 0x17f, 0x212a]) : c ≠ Char.ofNat n := by
    rintro rfl
    rw [code] at low letter
    exact listed.elim low letter
  have unusual : isPlain c = false := by
    have value : c.val.toNat = c.toNat := rfl
    simp only [List.mem_cons, List.not_mem_nil, or_false, not_or] at letter
    simp [isPlain, value, low, letter]
  obtain ⟨lower, -, digit⟩ := not_of_high (not_lt.mp low)
  have underscore : c ≠ '_' := differs (n := 95) (by decide) (by decide)
  have hyphen : c ≠ '-' := differs (n := 45) (by decide) (by decide)
  have dotless : c ≠ dotlessI := differs (n := 0x131) (by decide) (by decide)
  have long : c ≠ longS := differs (n := 0x17f) (by decide) (by decide)
  apply others c unusual
  · rw [folded, if_neg dotless, if_neg long]
  · simp [labelChar, lower, digit, underscore, hyphen]
  · exact differs (n := 46) (by decide) (by decide)
  · simp [labelPattern, foldsToLetter, unusual, digit, underscore, hyphen]

private theorem labelPattern_iff (c : Char) (stable : lowerPlain c = [c]) :
    labelPattern c = labelChar (folded c) := by
  induction c using forall_char with
  | ascii n small =>
    revert n
    decide
  | letters n listed =>
    revert n
    decide
  | others c _ same unlabelled _ unmatched => rw [same, unlabelled, unmatched]

private theorem folded_eq_iff {d : Char} (ascii : d ≠ 'i' ∧ d ≠ 's' ∧ d ≠ dotlessI ∧ d ≠ longS)
    (c : Char) :
    folded c = d ↔ c = d := by
  rw [folded]
  split_ifs with dotless long
  · simp [dotless, ascii.1.symm, ascii.2.2.1.symm]
  · simp [long, ascii.2.1.symm, ascii.2.2.2.symm]
  · exact Iff.rfl

private theorem stable_of_labelChar (c : Char) (labelled : labelChar (folded c) = true) :
    isPlain c = true ∧ lowerPlain c = [c] := by
  induction c using forall_char with
  | ascii n small =>
    revert n
    decide
  | letters n listed =>
    revert n
    decide
  | others c _ same unlabelled => simp [same, unlabelled] at labelled

/-! ### Texts -/

/-- A text that the pattern matches as a whole, without regard for the anchor at the end. -/
def matched (s : Text) : Bool :=
  (split '.' s).dropLast.all (component labelPattern) &&
    (split '.' s).getLast?.any (component fun c =>
      foldsToLetter c || isDigitAscii c || c == '-')

private theorem domainNamePattern_eq (value : Text) :
    domainNamePattern value = (beforeFinalNewline value).any matched := rfl

/-- Cutting off one newline at the end. -/
def chomp (s : Text) : Text := if s.getLast? = some '\n' then s.dropLast else s

/-- What the validators take a text for. -/
def undisguised (s : Text) : Text := (chomp s).map folded

private theorem mem_of_matched {s : Text} (whole : matched s = true) {c : Char} (inside : c ∈ s) :
    c = '.' ∨ labelPattern c = true := by
  by_cases dot : c = '.'
  · exact Or.inl dot
  right
  simp only [matched, Bool.and_eq_true] at whole
  obtain ⟨heads, last⟩ := whole
  obtain ⟨part, found, member⟩ := exists_part_of_mem dot inside
  have nonempty : split '.' s ≠ [] := List.splitOn_ne_nil '.' s
  rw [← List.dropLast_append_getLast nonempty, List.mem_append, List.mem_singleton] at found
  rcases found with front | rfl
  · have characters := List.all_eq_true.mp heads part front
    simp only [component, Bool.and_eq_true, List.all_eq_true] at characters
    exact characters.2 c member
  · rw [List.getLast?_eq_some_getLast nonempty] at last
    simp only [Option.any_some, component, Bool.and_eq_true, List.all_eq_true] at last
    have character := last.2 c member
    simp only [labelPattern, Bool.or_eq_true] at character ⊢
    tauto

theorem newline_not_mem_of_matched {s : Text} (whole : matched s = true) : '\n' ∉ s := by
  intro newline
  rcases mem_of_matched whole newline with dot | character
  · exact absurd dot (by decide)
  · exact absurd character (by decide)

/-- A final newline is the one character that may follow what is matched. -/
theorem domainNamePattern_iff (value : Text) :
    domainNamePattern value = matched (chomp value) := by
  rw [domainNamePattern_eq, beforeFinalNewline, chomp]
  by_cases final : value.getLast? = some '\n'
  · have unmatched : matched value = false := by
      rw [← Bool.not_eq_true]
      intro whole
      exact newline_not_mem_of_matched whole (List.mem_of_getLast? final)
    rw [if_pos final, if_pos final, List.any_cons, unmatched, Bool.false_or, List.any_cons,
      List.any_nil, Bool.or_false]
  · rw [if_neg final, if_neg final, List.any_cons, List.any_nil, Bool.or_false]

private theorem component_iff {part : Text} (stable : ∀ c ∈ part, lowerPlain c = [c]) :
    component labelPattern part = true ↔ Label (part.map folded) := by
  simp only [component, Bool.and_eq_true, decide_eq_true_eq, List.all_eq_true, Label,
    List.length_map, List.forall_mem_map, and_assoc]
  apply and_congr_right'
  apply and_congr_right'
  apply forall₂_congr
  intro c inside
  rw [labelPattern_iff c (stable c inside)]

private theorem component_last_iff (part : Text) :
    component (fun c => foldsToLetter c || isDigitAscii c || c == '-') part = true ↔
      component labelPattern part = true ∧ '_' ∉ part := by
  have character : ∀ c, (foldsToLetter c || isDigitAscii c || c == '-') = true ↔
      labelPattern c = true ∧ c ≠ '_' := by
    intro c
    by_cases underscore : c = '_'
    · subst underscore
      decide
    · simp [labelPattern, underscore]
  simp only [component, Bool.and_eq_true, List.all_eq_true, character, and_assoc]
  apply and_congr_right'
  apply and_congr_right'
  constructor
  · intro both
    exact ⟨fun c inside => (both c inside).1, fun inside => (both '_' inside).2 rfl⟩
  · rintro ⟨characters, absent⟩ c inside
    exact ⟨characters c inside, fun same => absent (same ▸ inside)⟩

private theorem matched_iff {s : Text} (stable : ∀ c ∈ s, lowerPlain c = [c]) :
    matched s = true ↔ Documented (s.map folded) := by
  have dot : ∀ c, folded c = '.' ↔ c = '.' := folded_eq_iff (by decide)
  have underscore : ∀ c, folded c = '_' ↔ c = '_' := folded_eq_iff (by decide)
  have parts_stable : ∀ part ∈ split '.' s, ∀ c ∈ part, lowerPlain c = [c] :=
    fun part found c inside => stable c (mem_of_mem_part found inside)
  rw [documented_iff_split, split_map dot, ← List.map_dropLast, List.getLast?_map, matched,
    Bool.and_eq_true, List.all_eq_true, List.forall_mem_map]
  apply and_congr
  · apply forall₂_congr
    intro part found
    exact component_iff (parts_stable part (List.mem_of_mem_dropLast found))
  · have nonempty : split '.' s ≠ [] := List.splitOn_ne_nil '.' s
    rw [List.getLast?_eq_some_getLast nonempty]
    have last_stable := parts_stable _ (List.getLast_mem nonempty)
    generalize (split '.' s).getLast nonempty = last at last_stable
    simp only [Option.any_some, Option.map_some, Option.mem_def, Option.some.injEq, forall_eq',
      ← component_iff last_stable]
    have absent : '_' ∉ last.map folded ↔ '_' ∉ last := by
      simp [underscore]
    rw [absent, component_last_iff]

private theorem mem_of_documented {s : Text} (documented : Documented s) {c : Char}
    (inside : c ∈ s) :
    c = '.' ∨ labelChar c = true := by
  by_cases dot : c = '.'
  · exact Or.inl dot
  right
  obtain ⟨heads, last⟩ := (documented_iff_split s).mp documented
  obtain ⟨part, found, member⟩ := exists_part_of_mem dot inside
  have nonempty : split '.' s ≠ [] := List.splitOn_ne_nil '.' s
  rw [← List.dropLast_append_getLast nonempty, List.mem_append, List.mem_singleton] at found
  rcases found with front | rfl
  · exact (heads part front).2.2 c member
  · exact (last _ (List.getLast?_eq_some_getLast nonempty)).1.2.2 c member

private theorem mem_chomp {s : Text} {c : Char} (inside : c ∈ s) : c = '\n' ∨ c ∈ chomp s := by
  rw [chomp]
  split
  · rename_i final
    rw [← List.dropLast_append_getLast? _ final, List.mem_append, List.mem_singleton] at inside
    exact inside.symm
  · exact Or.inr inside

private theorem mem_of_mem_chomp {s : Text} {c : Char} (inside : c ∈ chomp s) : c ∈ s := by
  rw [chomp] at inside
  split at inside
  · exact List.mem_of_mem_dropLast inside
  · exact inside

private theorem lowerPlain_ne_nil (c : Char) : lowerPlain c ≠ [] := by
  rw [lowerPlain]
  split_ifs <;> exact List.cons_ne_nil _ _

private theorem isPlain_of_labelPattern (c : Char) (character : labelPattern c = true) :
    isPlain c = true := by
  induction c using forall_char with
  | ascii n small =>
    revert n
    decide
  | letters n listed =>
    revert n
    decide
  | others c _ _ _ _ unmatched => exact absurd character (by simp [unmatched])

variable (unicode : Unicode)

private theorem validateLower_iff {s : Text} (plain : ∀ c ∈ s, isPlain c = true) :
    validateLower unicode s = true ↔ ∀ c ∈ s, lowerPlain c = [c] := by
  rw [validateLower, unicode.lower_plain s plain, beq_iff_eq, eq_comm,
    flatMap_eq_self_iff lowerPlain_ne_nil]

private theorem usual_of_documented {s : Text} (documented : Documented (undisguised s)) :
    ∀ c ∈ s, isPlain c = true ∧ lowerPlain c = [c] := by
  intro c inside
  rcases mem_chomp inside with rfl | before
  · decide
  · rcases mem_of_documented documented (List.mem_map_of_mem before) with dot | labelled
    · rw [(folded_eq_iff (by decide) c).mp dot]
      decide
    · exact stable_of_labelChar c labelled

/-- The validators accept exactly the texts that they take for a documented name. -/
theorem validateDomainName_iff (s : Text) :
    validateDomainName unicode s = true ↔ Documented (undisguised s) := by
  rw [validateDomainName, Bool.and_eq_true, domainNamePattern_iff]
  constructor
  · rintro ⟨lower, whole⟩
    have plain : ∀ c ∈ s, isPlain c = true := by
      intro c inside
      rcases mem_chomp inside with rfl | before
      · decide
      · rcases mem_of_matched whole before with rfl | character
        · decide
        · exact isPlain_of_labelPattern c character
    have stable := (validateLower_iff unicode plain).mp lower
    exact (matched_iff fun c inside => stable c (mem_of_mem_chomp inside)).mp whole
  · intro documented
    have usual := usual_of_documented documented
    exact ⟨(validateLower_iff unicode fun c inside => (usual c inside).1).mpr
      fun c inside => (usual c inside).2,
      (matched_iff fun c inside => (usual c (mem_of_mem_chomp inside)).2).mpr documented⟩

theorem usual_of_valid {s : Text} (valid : validateDomainName unicode s = true) :
    ∀ c ∈ s, isPlain c = true ∧ lowerPlain c = [c] :=
  usual_of_documented ((validateDomainName_iff unicode s).mp valid)

theorem not_dot_cons {s : Text} : validateDomainName unicode ('.' :: s) ≠ true := by
  intro valid
  rw [validateDomainName, Bool.and_eq_true, domainNamePattern_iff, chomp] at valid
  have unmatched : ∀ t : Text, matched ('.' :: t) = false := by
    intro t
    obtain ⟨head, tail, parts⟩ := List.exists_cons_of_ne_nil (List.splitOn_ne_nil '.' t)
    have first : split '.' ('.' :: t) = [] :: head :: tail := by
      rw [split, List.splitOn_cons_eq_if_modifyHead, parts]
      simp
    rw [matched, first, List.dropLast_cons_cons]
    simp [component]
  split at valid
  · rename_i final
    cases s with
    | nil => exact absurd final (by decide)
    | cons c s =>
      rw [List.dropLast_cons_cons, unmatched] at valid
      exact absurd valid.2 Bool.false_ne_true
  · rw [unmatched] at valid
    exact absurd valid.2 Bool.false_ne_true

/-- A text that is no documented name, but is taken for one: it ends in a newline or contains
one of the two letters, and nothing else is wrong with it. -/
def Disguised (s : Text) : Prop :=
  (s.getLast? = some '\n' ∨ dotlessI ∈ s ∨ longS ∈ s) ∧ Documented (undisguised s)

private theorem undisguised_of_not {s : Text}
    (plain : ¬ (s.getLast? = some '\n' ∨ dotlessI ∈ s ∨ longS ∈ s)) : undisguised s = s := by
  simp only [not_or] at plain
  obtain ⟨final, dotless, long⟩ := plain
  have kept : ∀ c ∈ s, folded c = id c := by
    intro c inside
    have notDotless : c ≠ dotlessI := fun same => dotless (same ▸ inside)
    have notLong : c ≠ longS := fun same => long (same ▸ inside)
    rw [folded, if_neg notDotless, if_neg notLong, id]
  rw [undisguised, chomp, if_neg final, List.map_congr_left kept, List.map_id]

private theorem not_disguised_of_documented {s : Text} (documented : Documented s) :
    ¬ (s.getLast? = some '\n' ∨ dotlessI ∈ s ∨ longS ∈ s) := by
  have outside : ∀ c, c ≠ '.' → labelChar c = false → c ∉ s := by
    intro c dot unlabelled inside
    rcases mem_of_documented documented inside with same | labelled
    · exact dot same
    · exact absurd labelled (by simp [unlabelled])
  rintro (final | dotless | long)
  · exact outside '\n' (by decide) (by decide) (List.mem_of_getLast? final)
  · exact outside dotlessI (by decide) (by decide) dotless
  · exact outside longS (by decide) (by decide) long

/-- A documented name has a request path. -/
theorem pdnsId_isSome_of_documented {s : Text} (documented : Documented s) :
    (pdnsId s).isSome = true := by
  have nonempty : s ≠ [] := by
    rintro rfl
    exact absurd ((documented_iff_split []).mp documented).2 (by
      intro last
      exact absurd (last [] rfl).1.1 (by decide))
  have matched : idPattern s = true := by
    rw [idPattern, List.any_eq_true]
    refine ⟨s, ?_, ?_⟩
    · rw [beforeFinalNewline]
      split <;> exact List.mem_cons_self
    · rw [Bool.and_eq_true, bne_iff_ne, List.all_eq_true]
      refine ⟨nonempty, ?_⟩
      intro c inside
      rcases mem_of_documented documented inside with rfl | labelled
      · decide
      · simp only [labelChar, Bool.or_eq_true] at labelled ⊢
        tauto
  rw [pdnsId, if_pos matched, Option.isSome_some]

/-- The validators accept a text exactly if it is a documented name, and one that they accept
has a request path of its own. -/
def Faithful (s : Text) : Prop :=
  (validateDomainName unicode s = true ↔ Documented s) ∧
    (validateDomainName unicode s = true → ∃ id, pdnsId s = some id ∧
      ∀ s', validateDomainName unicode s' = true → pdnsId s' = some id → s' = s)

/-- The request path of an accepted name, where it has one, is not that of any other. -/
theorem eq_of_pdnsId {s s' id : Text} (valid : validateDomainName unicode s = true)
    (path : pdnsId s = some id) (valid' : validateDomainName unicode s' = true)
    (path' : pdnsId s' = some id) : s' = s := by
  apply zoneId_injective valid' valid
  rw [← pdnsId_eq valid path, ← pdnsId_eq valid' path']

private theorem not_faithful_of_disguised {s : Text} (disguise : Disguised s) :
    ¬ Faithful unicode s := by
  intro faithful
  have accepted := (validateDomainName_iff unicode s).mpr disguise.2
  exact not_disguised_of_documented (faithful.1.mp accepted) disguise.1

/-- The validators are faithful to the documented grammar on all texts but the disguised ones. -/
theorem faithful_iff_not_disguised (s : Text) : Faithful unicode s ↔ ¬ Disguised s := by
  constructor
  · intro faithful disguise
    exact not_faithful_of_disguised unicode disguise faithful
  · intro open_faced
    have accepted_iff : validateDomainName unicode s = true ↔ Documented s := by
      rw [validateDomainName_iff]
      by_cases odd : s.getLast? = some '\n' ∨ dotlessI ∈ s ∨ longS ∈ s
      · constructor
        · intro documented
          exact absurd ⟨odd, documented⟩ open_faced
        · intro documented
          exact absurd odd (not_disguised_of_documented documented)
      · rw [undisguised_of_not odd]
    refine ⟨accepted_iff, ?_⟩
    intro accepted
    obtain ⟨id, path⟩ := Option.isSome_iff_exists.mp
      (pdnsId_isSome_of_documented (accepted_iff.mp accepted))
    exact ⟨id, path, fun s' valid' path' => eq_of_pdnsId unicode accepted path valid' path'⟩

/-- A newline at the end is accepted, and so is a dotless i, with which no request path exists. -/
theorem disguised_accepted :
    ¬ Faithful Unicode.plain "example\n".toList ∧
      validateDomainName Unicode.plain ("example.".toList ++ [dotlessI, 'o']) = true ∧
      pdnsId ("example.".toList ++ [dotlessI, 'o']) = none := by
  refine ⟨?_, by decide, by decide⟩
  apply not_faithful_of_disguised
  refine ⟨Or.inl (by decide), ?_⟩
  exact (validateDomainName_iff Unicode.plain "example\n".toList).mp (by decide)

end DesecStack.Names.Grammar
