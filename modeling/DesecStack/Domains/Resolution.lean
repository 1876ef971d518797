/- module: DesecStack/Domains/Resolution
   source: api/desecapi/models/domains.py 27-41, api/desecapi/views/dyndns.py 251-280
   digest: The domain of a user that a name belongs to, and where letter case gets in its way. -/

import DesecStack.Domains.Registrable
import DesecStack.Names.Grammar
import Mathlib.Data.List.Sort

set_option autoImplicit false
set_option relaxedAutoImplicit false

namespace DesecStack.Domains.Resolution

open Library.PyText
open Names.Validators (validateDomainName)
open Names.Qnames (runNameValidators)
open Names.Grammar (forall_char usual_of_valid not_dot_cons)
open Changes.Pdns (constructName)
open Registrable (Under under_iff lastSplit_eq_some)

structure Domain where
  name : Text
  owner : Nat
  deriving DecidableEq

/-- The table of domains: their names are valid, and no two are the same. -/
structure DomainTable (unicode : Unicode) where
  rows : List Domain
  unique : (rows.map Domain.name).Nodup
  valid : ∀ d ∈ rows, validateDomainName unicode d.name = true

variable {unicode : Unicode}

/-- The check that `filter_qname` makes first. -/
def passes (unicode : Unicode) (qname : Text) : Bool :=
  runNameValidators unicode (unicode.lower (removePrefix qname "*.".toList))

/-- `Domain.objects.filter_qname(qname, owner=owner)` -/
def DomainTable.filterQname (domains : DomainTable unicode) (qname : Text) (owner : Nat) :
    List Domain :=
  domains.rows.filter fun d => d.owner = owner && Names.Qnames.filterQname unicode qname d.name

/-- `order_by("-name_length")`; names of one length may come in any order. -/
def OrderedByLength (rows ordered : List Domain) : Prop :=
  ordered.Perm rows ∧ ordered.Pairwise fun d e => e.name.length ≤ d.name.length

/-- `qname.rpartition(f".{domain.name}")[0]` -/
def subname (qname : Text) (d : Domain) : Text := rpartitionHead ('.' :: d.name) qname

/-! ### Enclosing domains -/

/-- The number of labels. -/
def labels (name : Text) : Nat := (split '.' name).length

/-- A domain of the owner that the name equals or lies below, on a label boundary. -/
def Encloses (domains : DomainTable unicode) (owner : Nat) (qname : Text) (d : Domain) : Prop :=
  d ∈ domains.rows ∧ d.owner = owner ∧ Under d.name qname

/-- The enclosing domain with the most labels. -/
def Closest (domains : DomainTable unicode) (owner : Nat) (qname : Text) (d : Domain) : Prop :=
  Encloses domains owner qname d ∧
    ∀ e, Encloses domains owner qname e → e ≠ d → labels e.name < labels d.name

private theorem labels_lt_of_under {above below : Text} (under : Under above below)
    (different : above ≠ below) : labels above < labels below := by
  rcases under_iff.mp under with same | ⟨front, rfl⟩
  · exact absurd same.symm different
  · have some := List.length_pos_of_ne_nil (List.splitOn_ne_nil '.' front)
    rw [labels, labels, split, split, List.splitOn_append_cons_self, List.length_append]
    omega

private theorem eq_of_name {domains : DomainTable unicode} {d e : Domain} (one : d ∈ domains.rows)
    (two : e ∈ domains.rows) (same : d.name = e.name) : d = e :=
  List.inj_on_of_nodup_map domains.unique one two same

private theorem labels_lt_of_length_le {domains : DomainTable unicode} {owner : Nat} {qname : Text}
    {d e : Domain} (one : Encloses domains owner qname d) (two : Encloses domains owner qname e)
    (shorter : e.name.length ≤ d.name.length) (different : e ≠ d) :
    labels e.name < labels d.name := by
  apply labels_lt_of_under (two.2.2.of_length_le one.2.2 shorter)
  intro same
  exact different (eq_of_name two.1 one.1 same)

private theorem head?_iff_closest {domains : DomainTable unicode} {owner : Nat} {qname : Text}
    {rows ordered : List Domain} (members : ∀ d, d ∈ rows ↔ Encloses domains owner qname d)
    (order : OrderedByLength rows ordered) (d : Domain) :
    ordered.head? = some d ↔ Closest domains owner qname d := by
  have inside : ∀ e, e ∈ ordered ↔ Encloses domains owner qname e := fun e =>
    order.1.mem_iff.trans (members e)
  have closest : ∀ e, ordered.head? = some e → Closest domains owner qname e := by
    intro e first
    obtain ⟨rest, rfl⟩ := List.head?_eq_some_iff.mp first
    have encloses := (inside e).mp List.mem_cons_self
    refine ⟨encloses, ?_⟩
    intro f other different
    have later : f ∈ rest := (List.mem_cons.mp ((inside f).mpr other)).resolve_left different
    exact labels_lt_of_length_le encloses other
      ((List.pairwise_cons.mp order.2).1 f later) different
  refine ⟨closest d, ?_⟩
  intro nearest
  cases first : ordered.head? with
  | none =>
    rw [List.head?_eq_none_iff] at first
    exact absurd ((inside d).mpr nearest.1) (first ▸ List.not_mem_nil)
  | some e =>
    by_cases same : e = d
    · rw [same]
    · have more := nearest.2 e (closest e first).1 same
      have fewer := (closest e first).2 d nearest.1 (Ne.symm same)
      omega

private theorem exists_ordered (rows : List Domain) : ∃ ordered, OrderedByLength rows ordered := by
  let longer : Domain → Domain → Prop := fun d e => e.name.length ≤ d.name.length
  have total : Std.Total longer := ⟨fun d e => Nat.le_total _ _⟩
  have trans : IsTrans Domain longer := ⟨fun d e f one two => Nat.le_trans two one⟩
  exact ⟨rows.insertionSort longer, List.perm_insertionSort longer rows,
    List.pairwise_insertionSort longer rows⟩

/-! ### Letter case -/

/-- `U+0130`, the one plain character whose lowercase is two characters. -/
def dottedI : Char := Char.ofNat 0x130

/-- The lowercase of any other plain character. -/
def lowerChar (c : Char) : Char := if c = Char.ofNat 0x212a then 'k' else c.toLower

def Simple (s : Text) : Prop := ∀ c ∈ s, isPlain c = true ∧ c ≠ dottedI

/-- Only plain characters have a lowercase of plain characters. -/
def Narrow (unicode : Unicode) : Prop :=
  ∀ s, (∀ c ∈ unicode.lower s, isPlain c = true) → ∀ c ∈ s, isPlain c = true

theorem lowerChar_spec (c : Char) (plain : isPlain c = true ∧ c ≠ dottedI) :
    lowerPlain c = [lowerChar c] ∧ lowerChar (lowerChar c) = lowerChar c ∧
      (isPlain (lowerChar c) = true ∧ lowerChar c ≠ dottedI) ∧
      (lowerChar c = '*' ↔ c = '*') ∧ (lowerChar c = '.' ↔ c = '.') := by
  induction c using forall_char with
  | ascii n small =>
    revert n
    decide
  | letters n listed =>
    revert n
    decide
  | others c unusual => exact absurd plain.1 (by simp [unusual])

theorem lower_of_simple {s : Text} (simple : Simple s) : unicode.lower s = s.map lowerChar := by
  rw [unicode.lower_plain s fun c inside => (simple c inside).1, List.map_eq_flatMap]
  apply List.flatMap_congr
  intro c inside
  exact (lowerChar_spec c (simple c inside)).1

private theorem simple_map {s : Text} (simple : Simple s) : Simple (s.map lowerChar) := by
  intro c inside
  obtain ⟨d, before, rfl⟩ := List.mem_map.mp inside
  exact (lowerChar_spec d (simple d before)).2.2.1

private theorem simple_of_lower (narrow : Narrow unicode) {s : Text}
    (plain : ∀ c ∈ unicode.lower s, isPlain c = true) : Simple s := by
  have before := narrow s plain
  intro c inside
  refine ⟨before c inside, ?_⟩
  rintro rfl
  rw [unicode.lower_plain s before] at plain
  have mark : Char.ofNat 0x307 ∈ s.flatMap lowerPlain :=
    List.mem_flatMap.mpr ⟨dottedI, inside, by decide⟩
  exact absurd (plain _ mark) (by decide)

private theorem removePrefix_map {s : Text} (simple : Simple s) :
    removePrefix (s.map lowerChar) "*.".toList = (removePrefix s "*.".toList).map lowerChar := by
  have spec := fun c inside => lowerChar_spec c (simple c inside)
  match s with
  | [] => rfl
  | [c] =>
    have short : ∀ d : Char, removePrefix [d] "*.".toList = [d] := by
      intro d
      simp [removePrefix, startsWith]
    rw [List.map_singleton, short, short, List.map_singleton]
  | c :: d :: s =>
    have star := (spec c (by simp)).2.2.2.1
    have dot := (spec d (by simp)).2.2.2.2
    by_cases wild : c = '*' ∧ d = '.'
    · obtain ⟨rfl, rfl⟩ := wild
      rfl
    · have unlike : ∀ c d : Char, ¬ (c = '*' ∧ d = '.') → ∀ s : Text,
          removePrefix (c :: d :: s) "*.".toList = c :: d :: s := by
        intro c d unlike s
        rw [removePrefix, if_neg]
        intro wild
        obtain ⟨rest, whole⟩ := startsWith_iff.mp wild
        have heads : '*' :: '.' :: rest = c :: d :: s := whole
        cases heads
        exact unlike ⟨rfl, rfl⟩
      rw [List.map_cons, List.map_cons, unlike _ _ (by rwa [star, dot]), unlike c d wild,
        List.map_cons, List.map_cons]

private theorem simple_of_removePrefix {s : Text} (simple : Simple (removePrefix s "*.".toList)) :
    Simple s := by
  rw [removePrefix] at simple
  split at simple
  · rename_i wild
    obtain ⟨rest, rfl⟩ := startsWith_iff.mp wild
    intro c inside
    rcases List.mem_append.mp inside with before | after
    · have label : c = '*' ∨ c = '.' := by simpa using before
      rcases label with rfl | rfl
      · exact ⟨by decide, by decide⟩
      · exact ⟨by decide, by decide⟩
    · exact simple c (by rwa [List.drop_left])
  · exact simple

theorem simple_removePrefix {s : Text} (simple : Simple s) :
    Simple (removePrefix s "*.".toList) := by
  intro c inside
  rw [removePrefix] at inside
  split at inside
  · exact simple c (List.mem_of_mem_drop inside)
  · exact simple c inside

/-- A name that passes the check consists of plain characters. -/
theorem simple_of_passes (narrow : Narrow unicode) {qname : Text}
    (passed : passes unicode qname = true) : Simple qname := by
  apply simple_of_removePrefix
  apply simple_of_lower narrow
  rw [passes, runNameValidators, Bool.or_eq_true, Bool.and_eq_true] at passed
  rcases passed with empty | ⟨valid, -⟩
  · rw [of_decide_eq_true empty]
    exact fun c inside => absurd inside List.not_mem_nil
  · exact fun c inside => (usual_of_valid unicode valid c inside).1

private theorem passes_lower (narrow : Narrow unicode) (qname : Text) :
    passes unicode (unicode.lower qname) = passes unicode qname := by
  have same (simple : Simple qname) :
      passes unicode (unicode.lower qname) = passes unicode qname := by
    have rest := simple_removePrefix simple
    rw [passes, passes, lower_of_simple simple, removePrefix_map simple, lower_of_simple rest,
      lower_of_simple (simple_map rest), List.map_map]
    congr 1
    apply List.map_congr_left
    intro c inside
    exact (lowerChar_spec c (rest c inside)).2.1
  by_cases one : passes unicode qname = true
  · exact same (simple_of_passes narrow one)
  · by_cases two : passes unicode (unicode.lower qname) = true
    · have plain := simple_of_passes narrow two
      exact same (simple_of_lower narrow fun c inside => (plain c inside).1)
    · rw [Bool.not_eq_true] at one two
      rw [one, two]

private theorem encloses_lower (narrow : Narrow unicode) {domains : DomainTable unicode}
    {owner : Nat}
    {qname : Text} (passed : passes unicode qname = true) {d : Domain}
    (encloses : Encloses domains owner qname d) :
    Encloses domains owner (unicode.lower qname) d := by
  refine ⟨encloses.1, encloses.2.1, ?_⟩
  obtain ⟨front, whole⟩ := encloses.2.2
  have simple := simple_of_passes narrow passed
  have kept : d.name.map lowerChar = d.name := by
    have usual := usual_of_valid unicode (domains.valid d encloses.1)
    rw [← List.map_id d.name, List.map_map]
    apply List.map_congr_left
    intro c inside
    have notDotted : c ≠ dottedI := by
      rintro rfl
      exact absurd (usual _ inside).2 (by decide)
    have one := (lowerChar_spec c ⟨(usual c inside).1, notDotted⟩).1
    rw [(usual c inside).2] at one
    exact (List.singleton_injective one).symm
  refine ⟨front.map lowerChar, ?_⟩
  have mapped := congrArg (List.map lowerChar) whole
  rw [List.map_append, List.map_cons, List.map_cons, kept] at mapped
  rw [lower_of_simple simple]
  exact mapped

/-! ### Names and zones -/

theorem mem_filterQname {domains : DomainTable unicode} {owner : Nat} {qname : Text} (d : Domain) :
    d ∈ domains.filterQname qname owner ↔
      passes unicode qname = true ∧ Encloses domains owner qname d := by
  rw [DomainTable.filterQname, List.mem_filter, Bool.and_eq_true, decide_eq_true_eq,
    Names.Qnames.filterQname, Bool.and_eq_true, endsWith_iff, Encloses, passes]
  constructor
  · rintro ⟨row, owned, passed, under⟩
    exact ⟨passed, row, owned, under⟩
  · rintro ⟨passed, row, owned, under⟩
    exact ⟨row, owned, passed, under⟩

theorem subname_cases {qname : Text} {d : Domain} (under : Under d.name qname) :
    (qname = d.name ∧ subname qname d = []) ∨ qname = subname qname d ++ '.' :: d.name := by
  rcases under_iff.mp under with rfl | ⟨front, rfl⟩
  · refine .inl ⟨rfl, ?_⟩
    rw [subname, rpartitionHead]
    cases found : lastSplit ('.' :: d.name) d.name with
    | none => rfl
    | some parts =>
      have lengths := congrArg List.length (lastSplit_eq_some found)
      simp only [List.length_append, List.length_cons] at lengths
      omega
  · right
    rw [subname, rpartitionHead, lastSplit_append (List.cons_ne_nil _ _)]
    rfl

theorem constructName_subname (narrow : Narrow unicode) {domains : DomainTable unicode}
    {owner : Nat} {qname : Text} {d : Domain} (passed : passes unicode qname = true)
    (encloses : Encloses domains owner qname d) :
    constructName (subname qname d) d.name = qname ++ ['.'] := by
  have named : d.name ≠ [] := Names.Validators.ne_nil unicode (domains.valid d encloses.1)
  rcases subname_cases encloses.2.2 with ⟨same, apex⟩ | whole
  · rw [apex, same]
    simp [constructName, join, named]
  · generalize subname qname d = front at whole
    subst whole
    have something : front ≠ [] := by
      rintro rfl
      have whole : removePrefix ('.' :: d.name) "*.".toList = '.' :: d.name := rfl
      have dot : lowerChar '.' = '.' := rfl
      rw [List.nil_append] at passed
      have simple := simple_of_passes narrow passed
      rw [passes, whole, lower_of_simple simple, List.map_cons, dot, runNameValidators,
        Bool.or_eq_true, Bool.and_eq_true] at passed
      rcases passed with empty | ⟨valid, -⟩
      · exact absurd (of_decide_eq_true empty) (List.cons_ne_nil _ _)
      · exact not_dot_cons unicode valid
    simp [constructName, join, named, something, List.intercalate_cons_cons]

/-- The first domain found for a name is the owner's closest enclosing one, if there is one at
all; it is the same for the name in lowercase, and a lowercase name is put together again from
the domain and the subname. -/
def Resolves (domains : DomainTable unicode) (owner : Nat) (qname : Text) : Prop :=
  ∀ ordered orderedLower, OrderedByLength (domains.filterQname qname owner) ordered →
    OrderedByLength (domains.filterQname (unicode.lower qname) owner) orderedLower →
    (∀ d, ordered.head? = some d ↔ Closest domains owner qname d) ∧
    (ordered.head? = none ↔ ∀ d, ¬ Encloses domains owner qname d) ∧
    ordered.head? = orderedLower.head? ∧
    (unicode.lower qname = qname → ∀ d, ordered.head? = some d →
      constructName (subname qname d) d.name = qname ++ ['.'])

/-- No domain of the owner encloses the name only once it is lowercased, or only if the check
is left out. -/
def SameCase (domains : DomainTable unicode) (owner : Nat) (qname : Text) : Prop :=
  if passes unicode qname = true then
    ∀ d, Encloses domains owner (unicode.lower qname) d → Encloses domains owner qname d
  else ∀ d, ¬ Encloses domains owner qname d

section Cases

variable {domains : DomainTable unicode} {owner : Nat} {qname : Text}

private theorem none_iff_not_encloses {ordered : List Domain}
    (order : OrderedByLength (domains.filterQname qname owner) ordered)
    (passed : passes unicode qname = true) :
    ordered.head? = none ↔ ∀ d, ¬ Encloses domains owner qname d := by
  rw [List.head?_eq_none_iff, List.eq_nil_iff_forall_not_mem]
  apply forall_congr'
  intro d
  rw [order.1.mem_iff, mem_filterQname, and_iff_right passed]

private theorem head?_of_not_passes {ordered : List Domain}
    (order : OrderedByLength (domains.filterQname qname owner) ordered)
    (failed : passes unicode qname = false) : ordered.head? = none := by
  rw [List.head?_eq_none_iff, List.eq_nil_iff_forall_not_mem]
  intro d inside
  have passed := ((mem_filterQname d).mp (order.1.mem_iff.mp inside)).1
  rw [failed] at passed
  exact Bool.false_ne_true passed

/-- A name in the letter case of the domains around it resolves. -/
theorem resolves_of_sameCase (narrow : Narrow unicode) (same : SameCase domains owner qname) :
    Resolves domains owner qname := by
  intro ordered orderedLower order orderLower
  rw [SameCase] at same
  by_cases passed : passes unicode qname = true
  · rw [if_pos passed] at same
    have passedLower : passes unicode (unicode.lower qname) = true := by
      rw [passes_lower narrow, passed]
    have members : ∀ d, d ∈ domains.filterQname qname owner ↔ Encloses domains owner qname d :=
      fun d => (mem_filterQname d).trans (and_iff_right passed)
    have membersLower : ∀ d, d ∈ domains.filterQname (unicode.lower qname) owner ↔
        Encloses domains owner qname d := fun d =>
      (mem_filterQname d).trans ((and_iff_right passedLower).trans
        ⟨same d, encloses_lower narrow passed⟩)
    have heads := head?_iff_closest members order
    refine ⟨heads, none_iff_not_encloses order passed, ?_, ?_⟩
    · apply Option.ext
      intro d
      rw [heads d, head?_iff_closest membersLower orderLower d]
    · intro _ d first
      exact constructName_subname narrow passed ((heads d).mp first).1
  · rw [if_neg passed] at same
    rw [Bool.not_eq_true] at passed
    have failedLower : passes unicode (unicode.lower qname) = false := by
      rw [passes_lower narrow, passed]
    rw [head?_of_not_passes order passed, head?_of_not_passes orderLower failedLower]
    refine ⟨?_, ?_, rfl, ?_⟩
    · intro d
      constructor
      · intro found
        cases found
      · intro nearest
        exact absurd nearest.1 (same d)
    · simp only [true_iff]
      exact same
    · intro _ d found
      cases found

/-- A name that resolves is in the letter case of the domains around it. -/
theorem sameCase_of_resolves (narrow : Narrow unicode) (resolves : Resolves domains owner qname) :
    SameCase domains owner qname := by
  obtain ⟨ordered, order⟩ := exists_ordered (domains.filterQname qname owner)
  obtain ⟨orderedLower, orderLower⟩ :=
    exists_ordered (domains.filterQname (unicode.lower qname) owner)
  obtain ⟨heads, none_iff, agree, -⟩ := resolves ordered orderedLower order orderLower
  rw [SameCase]
  by_cases passed : passes unicode qname = true
  · rw [if_pos passed]
    intro d enclosesLower
    have passedLower : passes unicode (unicode.lower qname) = true := by
      rw [passes_lower narrow, passed]
    have found : d ∈ orderedLower :=
      orderLower.1.mem_iff.mpr ((mem_filterQname d).mpr ⟨passedLower, enclosesLower⟩)
    cases first : orderedLower.head? with
    | none =>
      rw [List.head?_eq_none_iff] at first
      exact absurd found (first ▸ List.not_mem_nil)
    | some e =>
      -- The longest of the domains for the lowercase name is found for the name as it is, and
      -- all others are above it.
      have longest := ((heads e).mp (agree.trans first)).1
      obtain ⟨rest, rfl⟩ := List.head?_eq_some_iff.mp first
      have shorter : d.name.length ≤ e.name.length := by
        rcases List.mem_cons.mp found with rfl | later
        · exact le_rfl
        · exact (List.pairwise_cons.mp orderLower.2).1 d later
      have above : Under d.name e.name :=
        enclosesLower.2.2.of_length_le
          (encloses_lower narrow passed longest).2.2 shorter
      exact ⟨enclosesLower.1, enclosesLower.2.1, above.trans longest.2.2⟩
  · rw [if_neg passed]
    rw [Bool.not_eq_true] at passed
    exact none_iff.mp (head?_of_not_passes order passed)

/-- Resolution of names is right in all but letter case: it works exactly for the names that
pass the check and are written in lowercase as far as the owner's domains reach into them, and
for those that fail it where there is nothing to find. -/
theorem resolves_iff_sameCase (narrow : Narrow unicode) :
    Resolves domains owner qname ↔ SameCase domains owner qname :=
  ⟨sameCase_of_resolves narrow, resolves_of_sameCase narrow⟩

end Cases

/-- Other characters are their own lowercase in the tables that leave them alone. -/
theorem narrow_plain : Narrow Unicode.plain := by
  have character : ∀ c, (∀ d ∈ lowerPlain c, isPlain d = true) → isPlain c = true := by
    intro c plain
    by_contra unusual
    have high : 128 ≤ c.toNat := by
      by_contra low
      exact unusual (by simp [isPlain, not_le.mp low])
    have notDotted : c.val.toNat ≠ 0x130 := fun code => unusual (by simp [isPlain, code])
    have notKelvin : c.val.toNat ≠ 0x212a := fun code => unusual (by simp [isPlain, code])
    have kept : c.toLower = c := by
      apply dif_neg
      rintro ⟨-, (le : c.toNat ≤ 90)⟩
      omega
    have alone : lowerPlain c = [c] := by
      rw [lowerPlain, if_neg notDotted, if_neg notKelvin, kept]
    exact unusual (plain c (alone ▸ List.mem_singleton_self c))
  intro s plain c inside
  apply character c
  intro d lowered
  exact plain d (List.mem_flatMap.mpr ⟨c, inside, lowered⟩)

/-- One domain. -/
def sampleDomains : DomainTable Unicode.plain where
  rows := [⟨"example.com".toList, 1⟩]
  unique := by decide
  valid := by decide

/-- A name whose domain part is written with a capital letter leads nowhere. -/
theorem capital_unresolved : ¬ Resolves sampleDomains 1 "www.Example.com".toList := by
  intro resolves
  have same := sameCase_of_resolves narrow_plain resolves
  rw [SameCase, if_pos (by decide)] at same
  have encloses := same ⟨"example.com".toList, 1⟩ ⟨by decide, rfl, by decide⟩
  exact absurd encloses.2.2 (by decide)

theorem resolves_lowercase : Resolves sampleDomains 1 "*.www.example.com".toList := by
  apply (resolves_iff_sameCase narrow_plain).mpr
  have lower : Unicode.plain.lower "*.www.example.com".toList = "*.www.example.com".toList := by
    decide
  rw [SameCase, if_pos (by decide), lower]
  exact fun d encloses => encloses

end DesecStack.Domains.Resolution
