/- module: DesecStack/Webapp/IpAddressValidators
   source: www/webapp/src/components/Field/ipAddressValidators.js
   digest: The address validators of the web app, against the grammar of addresses and subnets. -/

import DesecStack.Library.Decimal

set_option autoImplicit false
set_option relaxedAutoImplicit false

namespace DesecStack.Webapp.IpAddressValidators

open Library.PyText
open Library.Decimal

/-- `helpers.req`, which is true of the texts that are not empty. -/
structure Helpers where
  req : Text → Bool
  req_iff : ∀ value, req value = true ↔ value ≠ []

section Validators

variable (helpers : Helpers)

/-- The parts of an IPv4 address. -/
def isOctet (part : Text) : Bool :=
  if !isDigits part || (1 < part.length && ['0'].isPrefixOf part) then false
  else number part ≤ 255

def isIPv4Address (value : Text) : Bool :=
  if !helpers.req value then true
  else
    let parts := split '.' value
    parts.length = 4 && parts.all isOctet

def isHexDigit (c : Char) : Bool :=
  c.isDigit || ('a' ≤ c && c ≤ 'f') || ('A' ≤ c && c ≤ 'F')

def isIPv6HexGroup (value : Text) : Bool :=
  1 ≤ value.length && value.length ≤ 4 && value.all isHexDigit

/-- `address.match(/::/g)`, as a number. -/
def compressionMatches : Text → Nat
  | ':' :: ':' :: rest => compressionMatches rest + 1
  | _ :: rest => compressionMatches rest
  | [] => 0

/-- `address.split('::')` -/
def splitCompression : Text → List Text
  | ':' :: ':' :: rest => [] :: splitCompression rest
  | c :: rest => (splitCompression rest).modifyHead (c :: ·)
  | [] => [[]]

/-- The end of `isIPv6Address`, where no dots are expected any more. -/
def hasIPv6Groups (address : Text) : Bool :=
  if 1 < compressionMatches address then false
  else if compressionMatches address = 1 then
    let left := (splitCompression address).getD 0 []
    let right := (splitCompression address).getD 1 []
    let groups := (if left ≠ [] then split ':' left else []) ++
      (if right ≠ [] then split ':' right else [])
    groups.length < 8 && groups.all isIPv6HexGroup
  else
    let groups := split ':' address
    groups.length = 8 && groups.all isIPv6HexGroup

def isIPv6Address (value : Text) : Bool :=
  if !helpers.req value then true
  else if value.contains '%' then false
  else if value.contains '.' then
    match lastSplit [':'] value with
    | none => false
    | some (front, back) =>
      if !isIPv4Address helpers back then false else hasIPv6Groups (front ++ ":0:0".toList)
  else hasIPv6Groups value

def isPrefixLength (value : Text) (max : Nat) : Bool := isDigits value && number value ≤ max

def isIPAddressOrSubnet (value : Text) : Bool :=
  if !helpers.req value then true
  else
    match split '/' value with
    | [address] => isIPv4Address helpers address || isIPv6Address helpers address
    | [address, length] =>
      (isIPv4Address helpers address && isPrefixLength length 32) ||
        (isIPv6Address helpers address && isPrefixLength length 128)
    | _ => false

end Validators

section Grammar

/-- Four numbers up to 255 -/
def DottedQuad (s : Text) : Prop :=
  ∃ numbers : List Nat, numbers.length = 4 ∧ (∀ n ∈ numbers, n ≤ 255) ∧
    s = join ['.'] (numbers.map decimal)

/-- One to four hexadecimal digits -/
def HexGroup (s : Text) : Prop := 1 ≤ s.length ∧ s.length ≤ 4 ∧ ∀ c ∈ s, isHexDigit c = true

/-- Some number of groups, where the last two may be written as a dotted address. -/
def Groups (dotted : Bool) (count : Nat) (s : Text) : Prop :=
  ∃ groups : List Text, (∀ group ∈ groups, HexGroup group) ∧
    ((count = groups.length ∧ s = join [':'] groups) ∨
      (dotted = true ∧ count = groups.length + 2 ∧
        ∃ quad, DottedQuad quad ∧ s = join [':'] (groups ++ [quad])))

/-- Eight groups, or fewer around one `::`. -/
def IPv6Address (dotted : Bool) (s : Text) : Prop :=
  Groups dotted 8 s ∨ ∃ left right m n, Groups false m left ∧ Groups dotted n right ∧ m + n < 8 ∧
    s = left ++ "::".toList ++ right

/-- A decimal number up to a bound -/
def PrefixLength (max : Nat) (s : Text) : Prop :=
  ∃ zeros, ∃ n ≤ max, s = List.replicate zeros '0' ++ decimal n

/-- An address, or one with a prefix length. -/
def AddressOrSubnet (s : Text) : Prop :=
  DottedQuad s ∨ IPv6Address true s ∨ ∃ address length, s = address ++ '/' :: length ∧
    ((DottedQuad address ∧ PrefixLength 32 length) ∨
      (IPv6Address true address ∧ PrefixLength 128 length))

/-- The validators accept what the grammar allows. -/
structure Exact (helpers : Helpers) (value : Text) : Prop where
  ip4Address : isIPv4Address helpers value = true ↔ DottedQuad value
  ip6Address : isIPv6Address helpers value = true ↔ IPv6Address true value
  ipAddressOrSubnet : isIPAddressOrSubnet helpers value = true ↔ AddressOrSubnet value

end Grammar

section Texts

variable {sep : Char} {s t : Text} {parts : List Text}

private theorem join_split (s : Text) : join [sep] (split sep s) = s := List.intercalate_splitOn sep

private theorem split_join (nonempty : parts ≠ []) (apart : ∀ part ∈ parts, sep ∉ part) :
    split sep (join [sep] parts) = parts := List.splitOn_intercalate sep apart nonempty

private theorem split_append (s t : Text) :
    split sep (s ++ sep :: t) = split sep s ++ split sep t :=
  List.splitOn_append_cons_self s t

private theorem split_ne_nil (sep : Char) (s : Text) : split sep s ≠ [] := List.splitOn_ne_nil sep s

private theorem append_cons_inj {front back : Text} (absent : sep ∉ t) (absent' : sep ∉ back)
    (same : s ++ sep :: t = front ++ sep :: back) : s = front ∧ t = back := by
  have last := lastSplit_append_cons absent s
  rw [same, lastSplit_append_cons absent'] at last
  obtain ⟨rfl, rfl⟩ := Prod.mk.inj (Option.some.inj last)
  exact ⟨rfl, rfl⟩

end Texts

section Compression

variable {s t : Text}

private theorem compression_cons {c : Char} (apart : ¬ (c = ':' ∧ [':'] <+: s)) :
    compressionMatches (c :: s) = compressionMatches s ∧
      splitCompression (c :: s) = (splitCompression s).modifyHead (c :: ·) := by
  have other (rest : Text) (colon : c = ':') (starts : s = ':' :: rest) : False :=
    apart ⟨colon, ⟨rest, starts.symm⟩⟩
  exact ⟨compressionMatches.eq_2 c s other, splitCompression.eq_2 c s other⟩

/-- Each match separates two parts. -/
theorem splitCompression_spec (s : Text) :
    (splitCompression s).length = compressionMatches s + 1 ∧
      join "::".toList (splitCompression s) = s := by
  fun_induction compressionMatches s with
  | case1 rest ih =>
    obtain ⟨length, whole⟩ := ih
    have positive : 0 < (splitCompression rest).length := by omega
    obtain ⟨part, parts, split⟩ := List.exists_cons_of_length_pos positive
    rw [splitCompression, List.length_cons, length]
    rw [split] at whole ⊢
    rw [join_cons_cons, whole]
    exact ⟨rfl, rfl⟩
  | case2 c rest other ih =>
    obtain ⟨length, whole⟩ := ih
    have positive : 0 < (splitCompression rest).length := by omega
    obtain ⟨part, parts, split⟩ := List.exists_cons_of_length_pos positive
    rw [splitCompression.eq_2 c rest other, List.length_modifyHead, length]
    rw [split] at whole ⊢
    refine ⟨rfl, ?_⟩
    rw [List.modifyHead_cons]
    cases parts with
    | nil =>
      rw [join_singleton] at whole ⊢
      rw [whole]
    | cons next parts =>
      rw [join_cons_cons] at whole ⊢
      rw [List.cons_append, List.cons_append, whole]
  | case3 => exact ⟨rfl, rfl⟩

private theorem splitCompression_of_one (one : compressionMatches s = 1) :
    ∃ left right, splitCompression s = [left, right] ∧ s = left ++ "::".toList ++ right := by
  obtain ⟨length, whole⟩ := splitCompression_spec s
  rw [one] at length
  obtain ⟨left, right, parts⟩ := List.length_eq_two.mp length
  rw [parts, join_cons_cons, join_singleton] at whole
  exact ⟨left, right, parts, whole.symm⟩

/-- No match, also not where another text follows. -/
structure Tidy (s : Text) : Prop where
  unmatched : compressionMatches s = 0
  ends : ¬ [':'] <:+ s

private theorem Tidy.split (tidy : Tidy s) : splitCompression s = [s] := by
  obtain ⟨length, whole⟩ := splitCompression_spec s
  rw [tidy.unmatched] at length
  obtain ⟨part, parts⟩ := List.length_eq_one_iff.mp length
  rw [parts, join_singleton] at whole
  rw [parts, whole]

private theorem Tidy.append (tidy : Tidy s) (t : Text) :
    compressionMatches (s ++ "::".toList ++ t) = compressionMatches t + 1 ∧
      splitCompression (s ++ "::".toList ++ t) = s :: splitCompression t := by
  obtain ⟨none, ends⟩ := tidy
  fun_induction compressionMatches s with
  | case1 rest ih => omega
  | case2 c rest other ih =>
    have inner : ¬ [':'] <:+ rest := fun suffix => ends (suffix.trans (List.suffix_cons c rest))
    obtain ⟨count, parts⟩ := ih none inner
    have apart : ¬ (c = ':' ∧ [':'] <+: rest ++ "::".toList ++ t) := by
      rintro ⟨rfl, starts⟩
      cases rest with
      | nil => exact ends (List.suffix_refl _)
      | cons d rest =>
        have colon := (List.cons_prefix_cons.mp starts).1
        exact other rest rfl (by rw [← colon])
    obtain ⟨same, split⟩ := compression_cons apart
    rw [List.cons_append, List.cons_append, same, split, count, parts]
    exact ⟨rfl, rfl⟩
  | case3 => exact ⟨rfl, rfl⟩

private theorem compressionMatches_append (absent : ':' ∉ s) (t : Text) :
    compressionMatches (s ++ t) = compressionMatches t := by
  induction s with
  | nil => rfl
  | cons c s ih =>
    rw [List.mem_cons, not_or] at absent
    rw [List.cons_append, (compression_cons fun starts => absent.1 starts.1.symm).1, ih absent.2]

private theorem tidy_join {parts : List Text} (apart : ∀ part ∈ parts, part ≠ [] ∧ ':' ∉ part) :
    Tidy (join [':'] parts) := by
  induction parts with
  | nil => exact ⟨rfl, by decide⟩
  | cons part parts ih =>
    obtain ⟨⟨nonempty, absent⟩, others⟩ := List.forall_mem_cons.mp apart
    cases parts with
    | nil =>
      rw [join_singleton]
      constructor
      · have same := compressionMatches_append absent []
        rwa [List.append_nil] at same
      · rintro ⟨front, rfl⟩
        simp at absent
    | cons next parts =>
      obtain ⟨unmatched, ends⟩ := ih others
      obtain ⟨c, text, start, other⟩ : ∃ c text, join [':'] (next :: parts) = c :: text
        ∧ c ≠ ':' := by
        obtain ⟨some, none⟩ := others next List.mem_cons_self
        obtain ⟨c, rest, rfl⟩ := List.exists_cons_of_ne_nil some
        have other : c ≠ ':' := fun colon => none (colon ▸ List.mem_cons_self)
        cases parts with
        | nil => exact ⟨c, rest, join_singleton, other⟩
        | cons last parts => exact ⟨c, _, join_cons_cons, other⟩
      have step := compression_cons (c := ':') (s := join [':'] (next :: parts)) (by
        rintro ⟨_, starts⟩
        rw [start] at starts
        exact other (List.cons_prefix_cons.mp starts).1.symm)
      rw [join_cons_cons, List.append_assoc, List.singleton_append]
      constructor
      · rw [compressionMatches_append absent, step.1, unmatched]
      · intro suffix
        have tail : join [':'] (next :: parts) <:+ part ++ ':' :: join [':'] (next :: parts) :=
          ⟨part ++ [':'], by simp⟩
        exact ends (List.suffix_of_suffix_length_le suffix tail (by rw [start]; simp))

end Compression

section Groups

variable {s : Text} {groups : List Text} {dotted : Bool} {count : Nat}

private theorem isIPv6HexGroup_iff : isIPv6HexGroup s = true ↔ HexGroup s := by
  simp [isIPv6HexGroup, HexGroup, and_assoc]

private theorem HexGroup.ne_nil (group : HexGroup s) : s ≠ [] := List.length_pos_iff.mp group.1

private theorem HexGroup.not_mem (group : HexGroup s) {c : Char} (other : isHexDigit c = false) :
    c ∉ s :=
  fun member => by
    rw [group.2.2 c member] at other
    cases other

private theorem tidy_groups (hex : ∀ group ∈ groups, HexGroup group) : Tidy (join [':'] groups) :=
  tidy_join fun group member =>
    ⟨(hex group member).ne_nil, (hex group member).not_mem (by decide)⟩

private theorem split_groups (hex : ∀ group ∈ groups, HexGroup group) (nonempty : groups ≠ []) :
    split ':' (join [':'] groups) = groups :=
  split_join nonempty fun group member => (hex group member).not_mem (by decide)

private theorem join_groups_ne_nil (hex : ∀ group ∈ groups, HexGroup group)
    (nonempty : groups ≠ []) :
    join [':'] groups ≠ [] := by
  obtain ⟨group, rest, rfl⟩ := List.exists_cons_of_ne_nil nonempty
  have some := (hex group List.mem_cons_self).ne_nil
  cases rest with
  | nil => rwa [join_singleton]
  | cons next rest =>
    rw [join_cons_cons]
    simp

/-- The groups of a text that may be empty. -/
def groupsOf (s : Text) : List Text := if s ≠ [] then split ':' s else []

private theorem groupsOf_join (hex : ∀ group ∈ groups, HexGroup group) :
    groupsOf (join [':'] groups) = groups := by
  by_cases nonempty : groups = []
  · subst nonempty
    rfl
  · rw [groupsOf, if_pos (join_groups_ne_nil hex nonempty), split_groups hex nonempty]

private theorem join_groupsOf (s : Text) : join [':'] (groupsOf s) = s := by
  rw [groupsOf]
  split
  · exact join_split s
  · next empty => exact (not_not.mp empty).symm

private theorem groups_false_iff :
    Groups false count s ↔ count = (groupsOf s).length ∧ ∀ group ∈ groupsOf s, HexGroup group := by
  constructor
  · rintro ⟨groups, hex, ⟨rfl, rfl⟩ | ⟨dotted, _⟩⟩
    · rw [groupsOf_join hex]
      exact ⟨rfl, hex⟩
    · cases dotted
  · rintro ⟨rfl, hex⟩
    exact ⟨groupsOf s, hex, .inl ⟨rfl, (join_groupsOf s).symm⟩⟩

private theorem Groups.tidy (groups : Groups false count s) : Tidy s := by
  rw [← join_groupsOf s]
  exact tidy_groups (groups_false_iff.mp groups).2

private theorem eight_groups_iff :
    Groups false 8 s ↔ (split ':' s).length = 8 ∧ ∀ group ∈ split ':' s, HexGroup group := by
  rw [groups_false_iff, groupsOf]
  split
  · rw [eq_comm]
  · next empty =>
    rw [not_not.mp empty]
    simp [split]

private theorem hasIPv6Groups_iff : hasIPv6Groups s = true ↔ IPv6Address false s := by
  have full (unmatched : compressionMatches s = 0) :
      hasIPv6Groups s = true ↔ Groups false 8 s := by
    simp [hasIPv6Groups, unmatched, eight_groups_iff, isIPv6HexGroup_iff]
  have compressed {left right : Text} (one : compressionMatches s = 1)
      (parts : splitCompression s = [left, right]) : hasIPv6Groups s = true ↔
        ∃ m n, Groups false m left ∧ Groups false n right ∧ m + n < 8 := by
    have groups : hasIPv6Groups s = true ↔ (groupsOf left ++ groupsOf right).length < 8 ∧
        ∀ group ∈ groupsOf left ++ groupsOf right, HexGroup group := by
      have code : hasIPv6Groups s = (decide ((groupsOf left ++ groupsOf right).length < 8) &&
          (groupsOf left ++ groupsOf right).all isIPv6HexGroup) := by
        rw [hasIPv6Groups, one, parts]
        rfl
      simp only [code, Bool.and_eq_true, decide_eq_true_eq, List.all_eq_true, isIPv6HexGroup_iff]
    rw [groups, List.length_append, List.forall_mem_append]
    simp only [groups_false_iff]
    constructor
    · rintro ⟨less, front, back⟩
      exact ⟨_, _, ⟨rfl, front⟩, ⟨rfl, back⟩, less⟩
    · rintro ⟨m, n, ⟨rfl, front⟩, ⟨rfl, back⟩, less⟩
      exact ⟨less, front, back⟩
  constructor
  · intro accepted
    have few : compressionMatches s ≤ 1 := by
      by_contra many
      rw [hasIPv6Groups, if_pos (by omega)] at accepted
      cases accepted
    rcases Nat.le_one_iff_eq_zero_or_eq_one.mp few with unmatched | one
    · exact .inl ((full unmatched).mp accepted)
    · obtain ⟨left, right, parts, whole⟩ := splitCompression_of_one one
      obtain ⟨m, n, front, back, less⟩ := (compressed one parts).mp accepted
      exact .inr ⟨left, right, m, n, front, back, less, whole⟩
  · rintro (groups | ⟨left, right, m, n, front, back, less, rfl⟩)
    · exact (full groups.tidy.unmatched).mpr groups
    · obtain ⟨one, parts⟩ := front.tidy.append right
      rw [back.tidy.unmatched] at one
      rw [back.tidy.split] at parts
      exact (compressed one parts).mpr ⟨m, n, front, back, less⟩

end Groups

section Quads

variable {helpers : Helpers} {s : Text}

private theorem isOctet_iff : isOctet s = true ↔ ∃ n ≤ 255, s = decimal n := by
  rw [exists_decimal_iff, isOctet]
  by_cases digits : isDigits s = true <;> by_cases zero : 1 < s.length ∧ ['0'] <+: s <;>
    simp [digits, zero]

private theorem split_decimals {numbers : List Nat} (nonempty : numbers ≠ []) :
    split '.' (join ['.'] (numbers.map decimal)) = numbers.map decimal := by
  apply split_join (by simpa using nonempty)
  intro part member
  obtain ⟨n, _, rfl⟩ := List.mem_map.mp member
  intro dot
  have digit := (isDigits_iff.mp (isDigits_decimal n)).2 '.' dot
  cases digit

private theorem dottedQuad_iff :
    DottedQuad s ↔ (split '.' s).length = 4 ∧ ∀ part ∈ split '.' s, isOctet part = true := by
  constructor
  · rintro ⟨numbers, four, small, rfl⟩
    rw [split_decimals (List.ne_nil_of_length_pos (by omega)), List.length_map]
    refine ⟨four, fun part member => ?_⟩
    obtain ⟨n, there, rfl⟩ := List.mem_map.mp member
    exact isOctet_iff.mpr ⟨n, small n there, rfl⟩
  · rintro ⟨four, octets⟩
    refine ⟨(split '.' s).map number, by rwa [List.length_map], ?_, ?_⟩
    · intro n member
      obtain ⟨part, there, rfl⟩ := List.mem_map.mp member
      obtain ⟨n, small, rfl⟩ := isOctet_iff.mp (octets part there)
      rwa [number_decimal]
    · have parts : ((split '.' s).map number).map decimal = split '.' s := by
        rw [List.map_map, List.map_congr_left, List.map_id]
        intro part there
        obtain ⟨n, _, rfl⟩ := isOctet_iff.mp (octets part there)
        show decimal (number (decimal n)) = decimal n
        rw [number_decimal]
      rw [parts, join_split]

private theorem isIPv4Address_iff : isIPv4Address helpers s = true ↔ s = [] ∨ DottedQuad s := by
  rw [isIPv4Address, dottedQuad_iff]
  by_cases empty : s = []
  · have missing : helpers.req s = false := by
      rw [← Bool.not_eq_true, helpers.req_iff]
      exact not_not.mpr empty
    rw [missing]
    simp [empty]
  · simp [(helpers.req_iff s).mpr empty, empty]

private theorem DottedQuad.chars (quad : DottedQuad s) :
    '.' ∈ s ∧ ∀ c ∈ s, c = '.' ∨ c.isDigit = true := by
  constructor
  · by_contra absent
    have parts := (dottedQuad_iff.mp quad).1
    rw [split_of_not_mem absent] at parts
    cases parts
  · obtain ⟨numbers, _, _, rfl⟩ := quad
    intro c member
    rcases mem_join member with dot | ⟨part, there, inside⟩
    · exact .inl (List.mem_singleton.mp dot)
    · obtain ⟨n, _, rfl⟩ := List.mem_map.mp there
      exact .inr ((isDigits_iff.mp (isDigits_decimal n)).2 c inside)

private theorem DottedQuad.not_mem (quad : DottedQuad s) {c : Char} (dot : c ≠ '.')
    (digit : c.isDigit = false) : c ∉ s := by
  intro member
  rcases quad.chars.2 c member with same | same
  · exact dot same
  · rw [digit] at same
    cases same

end Quads

section Dotted

variable {s front quad : Text} {groups : List Text} {count : Nat}

/-- A group of one zero -/
def zero : Text := ['0']

private theorem hexGroup_zero : HexGroup zero := by
  refine ⟨Nat.le_refl 1, by decide, fun c member => ?_⟩
  rw [List.mem_singleton.mp member]
  rfl

private theorem hex_zeros (hex : ∀ group ∈ groups, HexGroup group) :
    ∀ group ∈ groups ++ [zero, zero], HexGroup group := by
  intro group member
  rcases List.mem_append.mp member with there | new
  · exact hex group there
  · have same : group = zero := by simpa using new
    rw [same]
    exact hexGroup_zero

private theorem groups_zeros (hex : ∀ group ∈ groups, HexGroup group) :
    Groups false (groups.length + 2) (join [':'] (groups ++ [zero, zero])) :=
  ⟨groups ++ [zero, zero], hex_zeros hex, .inl ⟨by simp, rfl⟩⟩

private theorem join_zeros (nonempty : groups ≠ []) :
    join [':'] (groups ++ [zero, zero]) = join [':'] groups ++ ":0:0".toList := by
  rw [join_append nonempty (List.cons_ne_nil _ _), List.append_assoc]
  rfl

private theorem join_quad (nonempty : groups ≠ []) (quad : Text) :
    join [':'] (groups ++ [quad]) = join [':'] groups ++ ':' :: quad := by
  rw [join_append nonempty (List.cons_ne_nil _ _), join_singleton, List.append_assoc]
  rfl

private theorem groups_true_iff : Groups true count s ↔ Groups false count s ∨
    ∃ groups quad, (∀ group ∈ groups, HexGroup group) ∧ count = groups.length + 2 ∧
      DottedQuad quad ∧ s = join [':'] (groups ++ [quad]) := by
  constructor
  · rintro ⟨groups, hex, plain | ⟨_, rfl, quad, dotted, rfl⟩⟩
    · exact .inl ⟨groups, hex, .inl plain⟩
    · exact .inr ⟨groups, quad, hex, rfl, dotted, rfl⟩
  · rintro (⟨groups, hex, plain | ⟨absurd, _⟩⟩ | ⟨groups, quad, hex, rfl, dotted, rfl⟩)
    · exact ⟨groups, hex, .inl plain⟩
    · cases absurd
    · exact ⟨groups, hex, .inr ⟨rfl, rfl, quad, dotted, rfl⟩⟩

private theorem undotted (address : IPv6Address true s) : IPv6Address false s ∨
    ∃ front quad, s = front ++ ':' :: quad ∧ DottedQuad quad ∧
      IPv6Address false (front ++ ":0:0".toList) := by
  rcases address with all | ⟨left, right, m, n, before, after, less, rfl⟩
  · rcases groups_true_iff.mp all with plain | ⟨groups, quad, hex, eight, dotted, rfl⟩
    · exact .inl (.inl plain)
    · have nonempty : groups ≠ [] := List.ne_nil_of_length_pos (by omega)
      refine .inr ⟨join [':'] groups, quad, join_quad nonempty quad, dotted, .inl ?_⟩
      rw [← join_zeros nonempty, eight]
      exact groups_zeros hex
  · rcases groups_true_iff.mp after with plain | ⟨groups, quad, hex, rfl, dotted, rfl⟩
    · exact .inl (.inr ⟨left, right, m, n, before, plain, less, rfl⟩)
    · right
      by_cases nonempty : groups = []
      · subst nonempty
        refine ⟨left ++ [':'], quad, by simp, dotted, .inr ⟨left, _, m, _, before,
          groups_zeros hex, less, by simp [join_cons_cons, zero]⟩⟩
      · refine ⟨left ++ "::".toList ++ join [':'] groups, quad, ?_, dotted, .inr ⟨left, _, m, _,
          before, groups_zeros hex, less, ?_⟩⟩
        · rw [join_quad nonempty]
          simp only [List.append_assoc]
        · rw [join_zeros nonempty]
          simp only [List.append_assoc]

private theorem dotted_of_zeros {quad : Text} (dotted : DottedQuad quad)
    (address : IPv6Address false (front ++ ":0:0".toList)) :
    IPv6Address true (front ++ ':' :: quad) := by
  have parts : split ':' (front ++ ":0:0".toList) = split ':' front ++ [zero, zero] :=
    split_append front "0:0".toList
  have whole : front ++ ':' :: quad = join [':'] (split ':' front ++ [quad]) := by
    rw [join_quad (split_ne_nil ':' front), join_split]
  rcases address with eight | ⟨left, right, m, n, before, after, less, same⟩
  · obtain ⟨length, hex⟩ := eight_groups_iff.mp eight
    rw [parts] at length hex
    refine .inl ⟨split ':' front, fun group member => hex group (List.mem_append_left _ member),
      .inr ⟨rfl, ?_, quad, dotted, whole⟩⟩
    simpa [eq_comm] using length
  · have apart : split ':' (left ++ "::".toList ++ right) =
        split ':' left ++ [] :: split ':' right := by
      rw [List.append_assoc]
      exact (split_append left (':' :: right)).trans
        (congrArg _ (split_append [] right))
    rw [same, apart] at parts
    obtain ⟨rfl, hex⟩ := groups_false_iff.mp after
    -- the part after `::` ends with the two zeros
    have ends : ∃ groups, split ':' right = groups ++ [zero, zero] ∧
        split ':' front = split ':' left ++ [] :: groups := by
      rcases List.append_eq_append_iff.mp parts with ⟨between, front_eq, right_eq⟩ |
        ⟨between, _, zeros⟩
      · cases between with
        | nil => cases right_eq
        | cons next groups =>
          obtain ⟨rfl, tail⟩ := List.cons.inj right_eq
          exact ⟨groups, tail, front_eq⟩
      · have inside : [] ∈ [zero, zero] := zeros ▸ List.mem_append_right _ List.mem_cons_self
        simp [zero] at inside
    obtain ⟨groups, right_eq, front_eq⟩ := ends
    have some : right ≠ [] := by
      rintro rfl
      have length := congrArg List.length right_eq
      simp [split] at length
    rw [groupsOf, if_pos some, right_eq] at hex less
    rw [whole, front_eq, List.append_assoc, List.cons_append]
    refine .inr ⟨left, join [':'] (groups ++ [quad]), m, _, before, ⟨groups,
      fun group member => hex group (List.mem_append_left _ member),
      .inr ⟨rfl, rfl, quad, dotted, rfl⟩⟩, by simpa using less, ?_⟩
    rw [join_append (split_ne_nil ':' left) (List.cons_ne_nil _ _), join_split]
    obtain ⟨next, rest, cons⟩ : ∃ next rest, groups ++ [quad] = next :: rest :=
      List.exists_cons_of_ne_nil (by simp)
    rw [cons, join_cons_cons]
    simp

end Dotted

section Addresses

variable {helpers : Helpers} {s : Text}

/-- The characters of an address -/
def isAddressChar (dotted : Bool) (c : Char) : Bool :=
  isHexDigit c || c = ':' || (dotted && c = '.')

private theorem isAddressChar_of_isHexDigit (dotted : Bool) {c : Char} (hex : isHexDigit c = true) :
    isAddressChar dotted c = true := by
  simp [isAddressChar, hex]

private theorem Groups.chars {dotted : Bool} {count : Nat} (groups : Groups dotted count s) :
    ∀ c ∈ s, isAddressChar dotted c = true := by
  intro c member
  obtain ⟨groups, hex, ⟨_, rfl⟩ | ⟨rfl, _, quad, quads, rfl⟩⟩ := groups
  · rcases mem_join member with colon | ⟨group, there, inside⟩
    · simp_all [isAddressChar]
    · exact isAddressChar_of_isHexDigit _ ((hex group there).2.2 c inside)
  · rcases mem_join member with colon | ⟨group, there, inside⟩
    · simp_all [isAddressChar]
    · rcases List.mem_append.mp there with there | last
      · exact isAddressChar_of_isHexDigit _ ((hex group there).2.2 c inside)
      · rw [List.mem_singleton.mp last] at inside
        rcases quads.chars.2 c inside with dot | digit
        · simp [isAddressChar, dot]
        · simp [isAddressChar, isHexDigit, digit]

private theorem IPv6Address.chars {dotted : Bool} (address : IPv6Address dotted s) :
    ∀ c ∈ s, isAddressChar dotted c = true := by
  rcases address with groups | ⟨left, right, m, n, before, after, _, rfl⟩
  · exact groups.chars
  · intro c member
    rcases List.mem_append.mp member with (front | back)
    · rcases List.mem_append.mp front with inside | colons
      · have plain := before.chars c inside
        simp only [isAddressChar, Bool.false_and, Bool.or_false] at plain
        simp [isAddressChar, plain]
      · have colon : c = ':' := by simpa using colons
        simp [isAddressChar, colon]
    · exact after.chars c back

private theorem IPv6Address.not_mem {dotted : Bool} (address : IPv6Address dotted s) {c : Char}
    (other : isAddressChar dotted c = false) : c ∉ s := by
  intro member
  rw [address.chars c member] at other
  cases other

private theorem IPv6Address.of_false (address : IPv6Address false s) : IPv6Address true s := by
  rcases address with groups | ⟨left, right, m, n, before, after, rest⟩
  · exact .inl (groups_true_iff.mpr (.inl groups))
  · exact .inr ⟨left, right, m, n, before, groups_true_iff.mpr (.inl after), rest⟩

private theorem isIPv6Address_iff (nonempty : s ≠ []) :
    isIPv6Address helpers s = true ↔ IPv6Address true s := by
  rw [isIPv6Address, (helpers.req_iff s).mpr nonempty]
  by_cases zone : '%' ∈ s
  · refine iff_of_false (by simp [zone]) fun address => address.not_mem (by decide) zone
  by_cases dot : '.' ∈ s
  · have missing (plain : IPv6Address false s) : False := plain.not_mem (by decide) dot
    by_cases colon : ':' ∈ s
    · obtain ⟨front, back, rfl, absent⟩ := exists_last_of_mem colon
      have code : isIPv4Address helpers back = true
        ∧ hasIPv6Groups (front ++ ":0:0".toList) = true ↔
          IPv6Address true (front ++ ':' :: back) := by
        rw [isIPv4Address_iff, hasIPv6Groups_iff]
        constructor
        · rintro ⟨rfl | quad, address⟩
          · have inside : '.' ∈ front := by simpa using dot
            exact absurd (List.mem_append_left _ inside) (address.not_mem (by decide))
          · exact dotted_of_zeros quad address
        · intro address
          rcases undotted address with plain | ⟨front', quad, same, quads, address'⟩
          · exact (missing plain).elim
          · obtain ⟨rfl, rfl⟩ := append_cons_inj absent (quads.not_mem (by decide) rfl) same
            exact ⟨.inr quads, address'⟩
      rw [← code, lastSplit_append_cons absent]
      simp [zone, dot]
    · refine iff_of_false (by simp [zone, dot, lastSplit_of_not_mem colon]) fun address => ?_
      rcases undotted address with plain | ⟨front, quad, rfl, _⟩
      · exact missing plain
      · exact colon (List.mem_append_right _ List.mem_cons_self)
  · have plain : IPv6Address true s ↔ IPv6Address false s := by
      refine ⟨fun address => ?_, IPv6Address.of_false⟩
      rcases undotted address with plain | ⟨front, quad, rfl, quads, _⟩
      · exact plain
      · exact absurd (List.mem_append_right _ (List.mem_cons_of_mem _ quads.chars.1)) dot
    rw [plain, ← hasIPv6Groups_iff]
    simp [zone, dot]

end Addresses

/-- A prefix length without an address -/
def BareLength (s : Text) : Prop := ∃ length, s = '/' :: length ∧ PrefixLength 128 length

section Subnets

variable {helpers : Helpers} {s address length : Text} {max : Nat}

private theorem isPrefixLength_iff : isPrefixLength s max = true ↔ PrefixLength max s := by
  rw [PrefixLength, exists_padded_iff, isPrefixLength, Bool.and_eq_true, decide_eq_true_eq]

private theorem PrefixLength.not_mem (prefixLength : PrefixLength max s) : '/' ∉ s := by
  intro member
  have digits := (isDigits_iff.mp ((exists_padded_iff max s).mp prefixLength).1).2
  cases digits '/' member

private theorem PrefixLength.mono {larger : Nat} (prefixLength : PrefixLength max s)
    (le : max ≤ larger) :
    PrefixLength larger s := by
  obtain ⟨zeros, n, small, whole⟩ := prefixLength
  exact ⟨zeros, n, small.trans le, whole⟩

private theorem slash_not_mem (written : DottedQuad s ∨ IPv6Address true s) : '/' ∉ s := by
  rcases written with quad | groups
  · exact quad.not_mem (by decide) rfl
  · exact groups.not_mem (by decide)

private theorem ne_nil_of_written (written : DottedQuad s ∨ IPv6Address true s) : s ≠ [] := by
  rintro rfl
  rcases written with quad | groups
  · cases quad.chars.1
  · rcases undotted groups with plain | ⟨front, quad, whole, _⟩
    · have accepted := hasIPv6Groups_iff.mpr plain
      revert accepted
      decide
    · simp at whole

private theorem addressOrSubnet_slash_iff (last : '/' ∉ length) :
    AddressOrSubnet (address ++ '/' :: length) ↔
      (DottedQuad address ∧ PrefixLength 32 length) ∨
        (IPv6Address true address ∧ PrefixLength 128 length) := by
  have slash : '/' ∈ address ++ '/' :: length := List.mem_append_right _ List.mem_cons_self
  constructor
  · rintro (quad | groups | ⟨address', length', same, parts⟩)
    · exact absurd slash (slash_not_mem (.inl quad))
    · exact absurd slash (slash_not_mem (.inr groups))
    · have last' : '/' ∉ length' := by
        rcases parts with ⟨_, digits⟩ | ⟨_, digits⟩
        · exact digits.not_mem
        · exact digits.not_mem
      obtain ⟨rfl, rfl⟩ := append_cons_inj last last' same
      exact parts
  · intro parts
    exact .inr (.inr ⟨address, length, rfl, parts⟩)

private theorem isIPAddressOrSubnet_address (nonempty : s ≠ []) (absent : '/' ∉ s) :
    isIPAddressOrSubnet helpers s = true ↔ AddressOrSubnet s := by
  rw [isIPAddressOrSubnet, (helpers.req_iff s).mpr nonempty, split_of_not_mem absent]
  simp only [Bool.not_true, Bool.false_eq_true, if_false, Bool.or_eq_true, isIPv4Address_iff,
    isIPv6Address_iff nonempty, nonempty, false_or]
  constructor
  · rintro (quad | groups)
    · exact .inl quad
    · exact .inr (.inl groups)
  · rintro (quad | groups | ⟨address, length, rfl, _⟩)
    · exact .inl quad
    · exact .inr groups
    · exact absurd (List.mem_append_right _ List.mem_cons_self) absent

private theorem isIPAddressOrSubnet_slash (first : '/' ∉ address) (last : '/' ∉ length) :
    isIPAddressOrSubnet helpers (address ++ '/' :: length) = true ↔
      (isIPv4Address helpers address = true ∧ PrefixLength 32 length) ∨
        (isIPv6Address helpers address = true ∧ PrefixLength 128 length) := by
  rw [isIPAddressOrSubnet, (helpers.req_iff _).mpr (by simp), split_append, split_of_not_mem first,
    split_of_not_mem last]
  simp [isPrefixLength_iff]

private theorem isIPAddressOrSubnet_slashes (another : '/' ∈ address) :
    isIPAddressOrSubnet helpers (address ++ '/' :: length) = false := by
  obtain ⟨front, back, rfl, _⟩ := exists_last_of_mem another
  rw [isIPAddressOrSubnet, (helpers.req_iff _).mpr (by simp), split_append, split_append]
  obtain ⟨one, ones, front_eq⟩ := List.exists_cons_of_ne_nil (split_ne_nil '/' front)
  obtain ⟨two, twos, back_eq⟩ := List.exists_cons_of_ne_nil (split_ne_nil '/' back)
  obtain ⟨three, threes, length_eq⟩ :=
    List.exists_cons_of_ne_nil (split_ne_nil '/' length)
  rw [front_eq, back_eq, length_eq]
  cases ones with
  | nil => cases twos <;> rfl
  | cons next ones => cases ones <;> rfl

/-- Only the empty text is taken for an address that the grammar does not allow. -/
theorem isIPAddressOrSubnet_iff (nonempty : s ≠ []) :
    (isIPAddressOrSubnet helpers s = true ↔ AddressOrSubnet s) ↔ ¬ BareLength s := by
  by_cases slash : '/' ∈ s
  · obtain ⟨address, length, rfl, last⟩ := exists_last_of_mem slash
    have bare : BareLength (address ++ '/' :: length) ↔
        address = [] ∧ PrefixLength 128 length := by
      constructor
      · rintro ⟨length', same, digits⟩
        obtain ⟨rfl, rfl⟩ := append_cons_inj last digits.not_mem
          (show address ++ '/' :: length = [] ++ '/' :: length' from same)
        exact ⟨rfl, digits⟩
      · rintro ⟨rfl, digits⟩
        exact ⟨length, rfl, digits⟩
    rw [addressOrSubnet_slash_iff last, bare]
    by_cases another : '/' ∈ address
    · have refused : ¬ ((DottedQuad address ∧ PrefixLength 32 length) ∨
          (IPv6Address true address ∧ PrefixLength 128 length)) := by
        rintro (⟨quad, _⟩ | ⟨groups, _⟩)
        · exact slash_not_mem (.inl quad) another
        · exact slash_not_mem (.inr groups) another
      rw [isIPAddressOrSubnet_slashes another]
      refine iff_of_true (by simp [refused]) fun empty => ?_
      rw [empty.1] at another
      cases another
    · rw [isIPAddressOrSubnet_slash another last]
      by_cases empty : address = []
      · subst empty
        have unwritten : ¬ (DottedQuad [] ∨ IPv6Address true []) := fun written =>
          ne_nil_of_written written rfl
        rw [not_or] at unwritten
        have four : isIPv4Address helpers [] = true := isIPv4Address_iff.mpr (.inl rfl)
        have six : isIPv6Address helpers [] = true := by
          rw [isIPv6Address]
          have missing : helpers.req [] = false := by
            rw [← Bool.not_eq_true, helpers.req_iff]
            exact not_not.mpr rfl
          rw [missing]
          rfl
        have shorter : PrefixLength 32 length → PrefixLength 128 length :=
          fun digits => digits.mono (by omega)
        simp only [four, six, unwritten, true_and, false_and, or_self, iff_false, not_or]
        exact ⟨And.right, fun none => ⟨fun digits => none (shorter digits), none⟩⟩
      · rw [isIPv4Address_iff, isIPv6Address_iff empty]
        simp [empty]
  · have plain : ¬ BareLength s := by
      rintro ⟨length, rfl, _⟩
      exact slash List.mem_cons_self
    exact iff_of_true (isIPAddressOrSubnet_address nonempty slash) plain

end Subnets

/-- The validators are exact, except on prefix lengths that are not preceded by an address. -/
theorem exact_iff (helpers : Helpers) {value : Text} (nonempty : value ≠ []) :
    Exact helpers value ↔ ¬ BareLength value := by
  have subnets : (isIPAddressOrSubnet helpers value = true ↔ AddressOrSubnet value) ↔ _ :=
    isIPAddressOrSubnet_iff nonempty
  rw [← subnets]
  constructor
  · intro exact
    exact exact.ipAddressOrSubnet
  · intro same
    refine ⟨?_, isIPv6Address_iff nonempty, same⟩
    rw [isIPv4Address_iff, or_iff_right nonempty]

/-- The check for an empty text -/
def plainHelpers : Helpers where
  req value := value ≠ []
  req_iff _ := decide_eq_true_iff

theorem exact_subnet : Exact plainHelpers "2001:db8::/32".toList :=
  (exact_iff plainHelpers (by decide)).mpr fun ⟨_, whole, _⟩ => by
    cases (List.cons.inj whole).1

/-- A prefix length alone is accepted as a subnet. -/
theorem bare_length_accepted :
    isIPAddressOrSubnet plainHelpers "/24".toList = true ∧
      ¬ AddressOrSubnet "/24".toList ∧ ¬ Exact plainHelpers "/24".toList := by
  have accepted : isIPAddressOrSubnet plainHelpers "/24".toList = true := by decide
  have unwritten : ¬ AddressOrSubnet "/24".toList := by
    intro written
    have parts := (addressOrSubnet_slash_iff (by decide)).mp
      (show AddressOrSubnet ([] ++ '/' :: "24".toList) from written)
    rcases parts with ⟨quad, _⟩ | ⟨groups, _⟩
    · exact ne_nil_of_written (.inl quad) rfl
    · exact ne_nil_of_written (.inr groups) rfl
  exact ⟨accepted, unwritten, fun exact => unwritten (exact.ipAddressOrSubnet.mp accepted)⟩

end DesecStack.Webapp.IpAddressValidators
