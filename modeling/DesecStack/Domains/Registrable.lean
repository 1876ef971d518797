/- module: DesecStack/Domains/Registrable
   source: api/desecapi/models/domains.py
   digest: Registration against the zones of other users, and what any sequence of it keeps. -/

import DesecStack.Library.Runs
import DesecStack.Names.Qnames

set_option autoImplicit false
set_option relaxedAutoImplicit false

namespace DesecStack.Domains.Registrable

open Library.PyText
open Names.Validators (validateDomainName domainNamePattern beforeFinalNewline component)
open Changes.Models (nameMaxLength)

/-- A name that the other one equals or lies below, label by label. -/
def Under (suffix name : Text) : Prop := ('.' :: suffix) <:+ ('.' :: name)

instance (suffix name : Text) : Decidable (Under suffix name) :=
  inferInstanceAs (Decidable (_ <:+ _))

/-- The answers of `psl_dns`: the public suffix of a name, and whether the name is one itself.
`none` stands for `Timeout` and `NoNameservers`. -/
structure PSL where
  answer : Text → Option (Text × Bool)
  labelwise : ∀ name suffix flag, answer name = some (suffix, flag) → Under suffix name

section Model

variable (psl : PSL) (localPublicSuffixes : List Text)

/-- One round of the loop over `LOCAL_PUBLIC_SUFFIXES`. -/
def longerSuffix (name publicSuffix localPublicSuffix : Text) : Text :=
  if endsWith ('.' :: name) ('.' :: localPublicSuffix) &&
      publicSuffix.length < localPublicSuffix.length then localPublicSuffix
  else publicSuffix

/-- `public_suffix` -/
def publicSuffix (name : Text) : Text :=
  let (suffix, isPublicSuffix) :=
    (psl.answer name).getD (rpartitionTail ['.'] name, !name.contains '.')
  if isPublicSuffix then suffix else localPublicSuffixes.foldl (longerSuffix name) suffix

/-- The list of `is_covered_by_foreign_zone`: the names from the domain up to its public suffix,
which is not among them. -/
def privateDomains (publicSuffix name : Text) : List Text :=
  let privateComponents := rstripChar '.' (rsplitHead publicSuffix name)
  let components := if privateComponents = [] then [] else split '.' privateComponents
  (List.range components.length).map fun i =>
    join ['.'] (components.drop i) ++ '.' :: publicSuffix

/-- `is_covered_by_foreign_zone`; `none` is the failed assertion. Domains come with their owners. -/
def isCoveredByForeignZone (domains : List (Text × Nat)) (owner : Nat) (name : Text) :
    Option Bool :=
  let suffix := publicSuffix psl localPublicSuffixes name
  let names := privateDomains suffix name
  if name = names.headD suffix then
    some (domains.any fun domain => names.contains domain.1 && domain.2 ≠ owner)
  else none

/-- `covers_foreign_zone` -/
def coversForeignZone (domains : List (Text × Nat)) (owner : Nat) (name : Text) : Bool :=
  domains.any fun domain => endsWith domain.1 ('.' :: name) && domain.2 ≠ owner

def reservedPrefixes : List Text :=
  ["_".toList, "autoconfig.".toList, "autodiscover.".toList]

/-- `is_registrable`; `none` is a failed assertion. -/
def isRegistrable (domains : List (Text × Nat)) (owner : Nat) (name : Text) : Option Bool :=
  let suffix := publicSuffix psl localPublicSuffixes name
  if name.count '.' < suffix.count '.' then none
  else if endsWith ('.' :: name) ".internal".toList then some false
  else if name.count '.' = suffix.count '.' ∧ name ∉ localPublicSuffixes then some false
  else if name.count '.' = suffix.count '.' + 1 ∧ reservedPrefixes.any (startsWith name) then
    some false
  else do
    let covered ← isCoveredByForeignZone psl localPublicSuffixes domains owner name
    if covered then some false else some (!coversForeignZone domains owner name)

inductive Operation where
  | register (name : Text) (owner : Nat)
  | delete (name : Text)

/-- A registration is admitted for a valid name that is not taken, if it is registrable now. -/
def perform (unicode : Unicode) (domains : List (Text × Nat)) :
    Operation → Option (List (Text × Nat))
  | .register name owner =>
      if validateDomainName unicode name && decide (name.length ≤ nameMaxLength) &&
          domains.all (fun domain => domain.1 ≠ name) &&
          isRegistrable psl localPublicSuffixes domains owner name = some true then
        some (domains ++ [(name, owner)])
      else none
  | .delete name => some (domains.filter fun domain => domain.1 ≠ name)

/-- The domains after a sequence of operations, from none. -/
def reached (unicode : Unicode) (operations : List Operation) : List (Text × Nat) :=
  operations.foldl (Library.Runs.attempt (perform psl localPublicSuffixes unicode)) []

end Model

section Suffixes

variable {suffix name : Text}

private theorem Under.refl (name : Text) : Under name name := List.suffix_refl _

/-- A name under another one equals it or has labels in front of it. -/
theorem under_iff : Under suffix name ↔ name = suffix ∨ ∃ front, name = front ++ '.' :: suffix := by
  constructor
  · rintro ⟨front, whole⟩
    cases front with
    | nil => exact .inl (List.cons.inj whole).2.symm
    | cons c front => exact .inr ⟨front, (List.cons.inj whole).2.symm⟩
  · rintro (rfl | ⟨front, rfl⟩)
    · exact Under.refl name
    · exact ⟨'.' :: front, rfl⟩

theorem Under.of_length_le {other : Text} (one : Under suffix name) (two : Under other name)
    (shorter : suffix.length ≤ other.length) : Under suffix other :=
  List.suffix_of_suffix_length_le one two (by simpa using shorter)

theorem lastSplit_eq_some {sep : Text} :
    ∀ {s before after : Text}, lastSplit sep s = some (before, after) →
      s = before ++ sep ++ after := by
  intro s
  induction s with
  | nil =>
    intro before after found
    simp only [lastSplit, Option.ite_none_right_eq_some, Option.some.injEq, Prod.mk.injEq] at found
    obtain ⟨rfl, rfl, rfl⟩ := found
    rfl
  | cons c s ih =>
    intro before after found
    rw [lastSplit] at found
    split at found
    case h_1 before' after' later =>
      simp only [Option.some.injEq, Prod.mk.injEq] at found
      obtain ⟨rfl, rfl⟩ := found
      rw [List.cons_append, List.cons_append, ← ih later]
    · simp only [Option.ite_none_right_eq_some, Option.some.injEq, Prod.mk.injEq] at found
      obtain ⟨⟨rest, whole⟩, rfl, rfl⟩ := found
      simp [← whole]

private theorem under_rpartitionTail (name : Text) : Under (rpartitionTail ['.'] name) name := by
  rw [rpartitionTail]
  cases found : lastSplit ['.'] name with
  | none => exact Under.refl name
  | some parts =>
    obtain ⟨before, after⟩ := parts
    apply under_iff.mpr
    right
    exact ⟨before, by simpa using lastSplit_eq_some found⟩

private theorem under_longerSuffix {localPublicSuffix : Text} (under : Under suffix name) :
    Under (longerSuffix name suffix localPublicSuffix) name := by
  rw [longerSuffix]
  split
  case isTrue longer =>
    simp only [Bool.and_eq_true, endsWith_iff] at longer
    exact longer.1
  · exact under

private theorem under_foldl {localPublicSuffixes : List Text} :
    ∀ {suffix : Text}, Under suffix name →
      Under (localPublicSuffixes.foldl (longerSuffix name) suffix) name := by
  induction localPublicSuffixes with
  | nil =>
    intro suffix under
    exact under
  | cons first rest ih =>
    intro suffix under
    exact ih (under_longerSuffix under)

private theorem under_publicSuffix (psl : PSL) (localPublicSuffixes : List Text) (name : Text) :
    Under (publicSuffix psl localPublicSuffixes name) name := by
  have answered : Under ((psl.answer name).getD
      (rpartitionTail ['.'] name, !name.contains '.')).1 name := by
    cases answer : psl.answer name with
    | none => exact under_rpartitionTail name
    | some pair => exact psl.labelwise name pair.1 pair.2 answer
  rw [publicSuffix]
  dsimp only
  split
  · exact answered
  · exact under_foldl answered

end Suffixes

section Names

/-- Labels are not empty: no dot at the start, none at the end, and no two in a row. -/
structure WellSeparated (name : Text) : Prop where
  nonempty : name ≠ []
  around : ∀ front back, name = front ++ '.' :: back →
    front ≠ [] ∧ ¬ ['.'] <:+ front ∧ back ≠ []

private theorem wellSeparated_of_labels {s : Text} (labels : ∀ part ∈ split '.' s, part ≠ []) :
    WellSeparated s := by
  have parts : ∀ front back, s = front ++ '.' :: back →
      ([] : Text) ∉ split '.' front ∧ ([] : Text) ∉ split '.' back := by
    rintro front back rfl
    rw [split, List.splitOn_append_cons_self] at labels
    constructor
    · intro member
      exact labels [] (List.mem_append_left _ member) rfl
    · intro member
      exact labels [] (List.mem_append_right _ member) rfl
  refine ⟨?_, ?_⟩
  · rintro rfl
    exact labels [] (by simp [split]) rfl
  · intro front back whole
    obtain ⟨first, second⟩ := parts front back whole
    refine ⟨?_, ?_, ?_⟩
    · rintro rfl
      exact first (by simp [split])
    · rintro ⟨start, rfl⟩
      apply first
      rw [split, List.splitOn_append_cons_self]
      exact List.mem_append_right _ (by simp)
    · rintro rfl
      exact second (by simp [split])

private theorem WellSeparated.append_newline {s : Text} (separated : WellSeparated s) :
    WellSeparated (s ++ ['\n']) := by
  refine ⟨by simp, ?_⟩
  intro front back whole
  rcases List.eq_nil_or_concat back with rfl | ⟨start, c, rfl⟩
  · have last := congrArg List.getLast? whole
    simp at last
  · rw [List.concat_eq_append, ← List.cons_append, ← List.append_assoc] at whole
    obtain ⟨some, open_, _⟩ := separated.around front start (List.append_inj' whole rfl).1
    exact ⟨some, open_, by simp⟩

private theorem wellSeparated_of_valid {unicode : Unicode} {name : Text}
    (valid : validateDomainName unicode name = true) : WellSeparated name := by
  simp only [validateDomainName, Bool.and_eq_true, domainNamePattern, List.any_eq_true] at valid
  obtain ⟨_, s, matched, heads, last⟩ := valid
  have separated : WellSeparated s := by
    apply wellSeparated_of_labels
    have nonempty : split '.' s ≠ [] := List.splitOn_ne_nil '.' s
    intro part member
    rw [← List.dropLast_append_getLast nonempty, List.mem_append, List.mem_singleton] at member
    rintro rfl
    rcases member with front | final
    · have long := List.all_eq_true.mp heads [] front
      simp [component] at long
    · rw [List.getLast?_eq_some_getLast nonempty, ← final] at last
      simp [component] at last
  unfold beforeFinalNewline at matched
  split at matched
  case isTrue final =>
    rcases List.mem_pair.mp matched with rfl | rfl
    · exact separated
    · have whole := List.dropLast_append_getLast? _ final
      rw [← whole]
      exact separated.append_newline
  case isFalse => exact List.mem_singleton.mp matched ▸ separated

end Names

section Covering

variable {suffix name : Text}

private theorem privateDomains_self (nonempty : name ≠ []) : privateDomains name name = [] := by
  have nothing := lastSplit_append nonempty []
  rw [List.nil_append] at nothing
  simp [privateDomains, rsplitHead, nothing, rstripChar]

private theorem privateDomains_append {front : Text}
    (separated : WellSeparated (front ++ '.' :: suffix)) :
    privateDomains suffix (front ++ '.' :: suffix) =
      (List.range (split '.' front).length).map fun i =>
        join ['.'] ((split '.' front).drop i) ++ '.' :: suffix := by
  obtain ⟨some, open_, nonempty⟩ := separated.around front suffix rfl
  have cut := lastSplit_append nonempty (front ++ ['.'])
  rw [List.append_assoc, List.singleton_append] at cut
  have stripped : rstripChar '.' (front ++ ['.']) = front := by
    have trimmed := rstripChar_of_not_endsWith open_
    rw [rstripChar] at trimmed ⊢
    simpa using trimmed
  simp only [privateDomains, rsplitHead, cut, Option.map_some, Option.getD_some, stripped, some,
    if_false]

private theorem headD_privateDomains (separated : WellSeparated name) (under : Under suffix name) :
    (privateDomains suffix name).headD suffix = name := by
  rcases under_iff.mp under with rfl | ⟨front, rfl⟩
  · rw [privateDomains_self separated.nonempty]
    rfl
  · rw [privateDomains_append separated]
    obtain ⟨label, labels, parts⟩ := List.exists_cons_of_ne_nil (List.splitOn_ne_nil '.' front)
    have whole : join ['.'] (split '.' front) = front := List.intercalate_splitOn '.'
    rw [split] at whole ⊢
    simp only [parts, List.length_cons, List.range_succ_eq_map, List.map_cons, List.drop_zero,
      List.headD_cons]
    rw [← parts, whole]

private theorem mem_privateDomains {other : Text} (separated : WellSeparated name)
    (one : Under suffix name) (two : Under other name)
    (longer : suffix.length < other.length) : other ∈ privateDomains suffix name := by
  have between : Under suffix other := one.of_length_le two longer.le
  rcases under_iff.mp between with rfl | ⟨front, rfl⟩
  · exact absurd longer (lt_irrefl _)
  · have listed : ∀ before : List Text, ∀ start : Text,
        split '.' start = before ++ split '.' front →
        front ++ '.' :: suffix ∈ (List.range (split '.' start).length).map fun i =>
          join ['.'] ((split '.' start).drop i) ++ '.' :: suffix := by
      intro before start parts
      refine List.mem_map.mpr ⟨before.length, ?_, ?_⟩
      · have some := List.length_pos_of_ne_nil (List.splitOn_ne_nil '.' front)
        rw [List.mem_range, parts, List.length_append]
        exact Nat.lt_add_of_pos_right some
      · rw [parts, List.drop_left]
        exact congrArg (· ++ '.' :: suffix) (List.intercalate_splitOn '.')
    rcases under_iff.mp two with rfl | ⟨start, rfl⟩
    · rw [privateDomains_append separated]
      exact listed [] front rfl
    · rw [← List.cons_append, ← List.append_assoc] at separated ⊢
      rw [privateDomains_append separated]
      exact listed (split '.' start) _ (List.splitOn_append_cons_self start front)

variable (psl : PSL) (localPublicSuffixes : List Text)

/-- The assertion of `is_covered_by_foreign_zone` holds. -/
theorem isCoveredByForeignZone_eq (separated : WellSeparated name) (domains : List (Text × Nat))
    (owner : Nat) :
    isCoveredByForeignZone psl localPublicSuffixes domains owner name =
      some (domains.any fun domain =>
        (privateDomains (publicSuffix psl localPublicSuffixes name) name).contains domain.1 &&
          domain.2 ≠ owner) := by
  rw [isCoveredByForeignZone]
  exact if_pos (headD_privateDomains separated (under_publicSuffix ..)).symm

private theorem count_le_of_under (under : Under suffix name) :
    suffix.count '.' ≤ name.count '.' := by
  have counted := under.sublist.count_le '.'
  simpa using counted

/-- The assertion of `is_registrable` holds too. -/
theorem isRegistrable_ne_none (separated : WellSeparated name) (domains : List (Text × Nat))
    (owner : Nat) : isRegistrable psl localPublicSuffixes domains owner name ≠ none := by
  have counted := count_le_of_under (under_publicSuffix psl localPublicSuffixes name)
  rw [isRegistrable, if_neg (Nat.not_lt.mpr counted), isCoveredByForeignZone_eq _ _ separated]
  iterate 3
    split
    · exact Option.some_ne_none _
  rw [Option.bind_eq_bind, Option.bind_some]
  split <;> exact Option.some_ne_none _

private theorem free_of_registrable (separated : WellSeparated name) {domains : List (Text × Nat)}
    {owner : Nat}
    (registrable : isRegistrable psl localPublicSuffixes domains owner name = some true) :
    ∀ domain ∈ domains, domain.2 ≠ owner →
      domain.1 ∉ privateDomains (publicSuffix psl localPublicSuffixes name) name ∧
        ¬ ('.' :: name) <:+ domain.1 := by
  rw [isRegistrable] at registrable
  simp only [isCoveredByForeignZone_eq _ _ separated, Option.ite_none_left_eq_some,
    Option.bind_eq_bind, Option.bind_some] at registrable
  obtain ⟨_, registrable⟩ := registrable
  iterate 3
    rw [ite_eq_iff] at registrable
    obtain ⟨_, impossible⟩ | ⟨_, registrable⟩ := registrable
    · cases impossible
  rw [ite_eq_iff] at registrable
  obtain ⟨_, impossible⟩ | ⟨uncovered, registrable⟩ := registrable
  · cases impossible
  have uncovering := Option.some.inj registrable
  simp only [coversForeignZone, List.any_eq_true, Bool.and_eq_true, decide_eq_true_eq,
    Bool.not_eq_true', List.any_eq_false, endsWith_iff] at uncovered uncovering
  intro domain member foreign
  constructor
  · intro listed
    exact uncovered ⟨domain, member, by simpa using listed, foreign⟩
  · intro ends
    exact uncovering domain member ⟨ends, foreign⟩

end Covering

section Main

variable (psl : PSL) (localPublicSuffixes : List Text) (unicode : Unicode)

/-- Registered names are valid, and a name above the name of another owner is at or above the
public suffix of the latter. -/
structure Private (domains : List (Text × Nat)) : Prop where
  separated : ∀ domain ∈ domains, WellSeparated domain.1
  uncovered : ∀ above ∈ domains, ∀ below ∈ domains, above.2 ≠ below.2 →
    Under above.1 below.1 → above.1 ≠ below.1 →
      Under above.1 (publicSuffix psl localPublicSuffixes below.1)

variable {psl localPublicSuffixes unicode} {domains domains' : List (Text × Nat)}

private theorem private_of_register {name : Text} {owner : Nat}
    (kept : Private psl localPublicSuffixes domains) (separated : WellSeparated name)
    (registrable : isRegistrable psl localPublicSuffixes domains owner name = some true) :
    Private psl localPublicSuffixes (domains ++ [(name, owner)]) := by
  have free := free_of_registrable psl localPublicSuffixes separated registrable
  constructor
  · intro domain member
    rcases List.mem_append.mp member with old | new
    · exact kept.separated domain old
    · rw [List.mem_singleton.mp new]
      exact separated
  · intro above first below second foreign under proper
    rcases List.mem_append.mp first with oldAbove | newAbove
    · rcases List.mem_append.mp second with oldBelow | newBelow
      · exact kept.uncovered above oldAbove below oldBelow foreign under proper
      · -- The new name is below: the names down from its public suffix have been looked up.
        rw [List.mem_singleton.mp newBelow] at foreign under ⊢
        have suffix := under_publicSuffix psl localPublicSuffixes name
        have unlisted := (free above oldAbove foreign).1
        by_contra apart
        apply unlisted
        apply mem_privateDomains separated suffix under
        by_contra short
        exact apart (under.of_length_le suffix (Nat.le_of_not_lt short))
    · rcases List.mem_append.mp second with oldBelow | newBelow
      · -- The new name is above: names that end with it have been looked up.
        rw [List.mem_singleton.mp newAbove] at foreign under proper
        have unended := (free below oldBelow foreign.symm).2
        rcases under_iff.mp under with same | ⟨front, whole⟩
        · exact absurd same.symm proper
        · exact absurd ⟨front, whole.symm⟩ unended
      · rw [List.mem_singleton.mp newAbove, List.mem_singleton.mp newBelow] at foreign
        exact absurd rfl foreign

private theorem private_of_perform {operation : Operation}
    (kept : Private psl localPublicSuffixes domains)
    (done : perform psl localPublicSuffixes unicode domains operation = some domains') :
    Private psl localPublicSuffixes domains' := by
  cases operation with
  | register name owner =>
    simp only [perform, Option.ite_none_right_eq_some, Bool.and_eq_true, decide_eq_true_eq,
      Option.some.injEq] at done
    obtain ⟨⟨⟨⟨valid, _⟩, _⟩, registrable⟩, rfl⟩ := done
    exact private_of_register kept (wellSeparated_of_valid valid) registrable
  | delete name =>
    simp only [perform, Option.some.injEq] at done
    subst done
    refine ⟨fun domain member => kept.separated domain (List.mem_of_mem_filter member), ?_⟩
    intro above first below second
    exact kept.uncovered above (List.mem_of_mem_filter first) below (List.mem_of_mem_filter second)

private theorem private_reached (operations : List Operation) :
    Private psl localPublicSuffixes (reached psl localPublicSuffixes unicode operations) :=
  Library.Runs.attempts_preserve (fun _ _ _ kept done => private_of_perform kept done)
    ⟨by simp, by simp⟩

variable (psl localPublicSuffixes unicode)

/-- After every sequence of registrations and deletions, a domain above the domain of another
owner is at or above its public suffix; and no assertion fails on the way. -/
theorem no_foreign_cover :
    (∀ operations, ∀ above ∈ reached psl localPublicSuffixes unicode operations,
      ∀ below ∈ reached psl localPublicSuffixes unicode operations, above.2 ≠ below.2 →
        Under above.1 below.1 → above.1 ≠ below.1 →
          Under above.1 (publicSuffix psl localPublicSuffixes below.1)) ∧
    ∀ name, validateDomainName unicode name = true → ∀ domains owner,
      isRegistrable psl localPublicSuffixes domains owner name ≠ none ∧
        isCoveredByForeignZone psl localPublicSuffixes domains owner name ≠ none := by
  constructor
  · intro operations
    exact (private_reached operations).uncovered
  · intro name valid domains owner
    have separated := wellSeparated_of_valid valid
    refine ⟨isRegistrable_ne_none psl localPublicSuffixes separated domains owner, ?_⟩
    rw [isCoveredByForeignZone_eq psl localPublicSuffixes separated]
    exact Option.some_ne_none _

/-- Without answers from the resolver, top-level domains are public suffixes. -/
example :
    reached ⟨fun _ => none, by simp⟩ ["dedyn.io".toList] Unicode.plain
      [.register "a.dedyn.io".toList 1, .register "b.a.dedyn.io".toList 2,
        .register "dedyn.io".toList 3, .register "b.dedyn.io".toList 2] =
      [("a.dedyn.io".toList, 1), ("b.dedyn.io".toList, 2)] := by
  decide

end Main

section Sample

private def hosting₀ : Text := "hosting.example.com".toList

/-- A resolver that knows the public suffixes `com` and `hosting.example.com`. -/
private def answer₀ (name : Text) : Option (Text × Bool) :=
  if Under hosting₀ name then some (hosting₀, name = hosting₀)
  else if Under "com".toList name then some ("com".toList, name = "com".toList)
  else none

private theorem labelwise₀ (name suffix : Text) (flag : Bool)
    (answered : answer₀ name = some (suffix, flag)) : Under suffix name := by
  rw [answer₀] at answered
  split_ifs at answered with hosting com
  · obtain ⟨rfl, -⟩ := Prod.mk.inj (Option.some.inj answered)
    exact hosting
  · obtain ⟨rfl, -⟩ := Prod.mk.inj (Option.some.inj answered)
    exact com

private def psl₀ : PSL := ⟨answer₀, labelwise₀⟩

/-- Two owners, a private domain above the public suffix of the other's, and two refusals. -/
private def operations₀ : List Operation :=
  [.register "example.com".toList 1, .register "b.hosting.example.com".toList 2,
    .register "a.example.com".toList 2, .register "a.b.hosting.example.com".toList 1]

private theorem reached₀ : reached psl₀ ["dedyn.io".toList] Unicode.plain operations₀ =
    [("example.com".toList, 1), ("b.hosting.example.com".toList, 2)] := by
  decide

theorem no_foreign_cover_hosting :
    Under "example.com".toList
        (publicSuffix psl₀ ["dedyn.io".toList] "b.hosting.example.com".toList) ∧
      publicSuffix psl₀ ["dedyn.io".toList] "b.hosting.example.com".toList = hosting₀ := by
  refine ⟨?_, by decide⟩
  have kept := (no_foreign_cover psl₀ ["dedyn.io".toList] Unicode.plain).1 operations₀
  rw [reached₀] at kept
  exact kept ("example.com".toList, 1) (by simp) ("b.hosting.example.com".toList, 2) (by simp)
    (by decide) (by decide) (by decide)

end Sample

end DesecStack.Domains.Registrable
