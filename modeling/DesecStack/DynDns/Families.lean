/- module: DesecStack/DynDns/Families
   layer: lemmas
   digest: The entries of parameters that belong to an address family, and the actions they mean. -/

import DesecStack.DynDns.Actions

set_option autoImplicit false
set_option relaxedAutoImplicit false

namespace DesecStack.DynDns.Families

open Library.PyText
open Library.Raising
open Library.Runs (bind_eq_ok_iff)
open Ipaddress
open Actions

/-- The type of the RRsets with addresses of a family. -/
def typeOf : Family → Text
  | .ipv4 => "A".toList
  | .ipv6 => "AAAA".toList

/-- The character by which the view tells the family. -/
def separatorOf : Family → Char
  | .ipv4 => '.'
  | .ipv6 => ':'

/-- The general parameters for a family, in their order. -/
def keysOf : Family → List Text
  | .ipv4 => keysA
  | .ipv6 => keysAAAA

/-- `ipaddress` reads the entry as an address or a network of the family. -/
def isOf (family : Family) (entry : Text) : Bool :=
  match ipNetwork entry with
  | .ok network => network.family = family
  | .error _ => false

/-- The entries of a value that are for a family, each once. -/
def part (family : Family) (value : Text) : List Text :=
  (((split ',' value).map strip).filter fun entry =>
    isOf family entry || entry = [] || entry = preserve).dedup

/-- The entry says something about the family. -/
def Applies (family : Family) (entry : Text) : Prop :=
  isOf family entry = true ∨ entry = [] ∨ entry = preserve

/-- The first entries, of the parameters in their order, that are not none. -/
def firstEntries (entriesOf : Text → List Text) (query : Query) : List Text → Option (List Text)
  | [] => none
  | key :: keys =>
    match (query.reverse.lookup key).map entriesOf with
    | some (entry :: entries) => some (entry :: entries)
    | _ => firstEntries entriesOf query keys

/-- The entries that govern a family at hosts without parameters of their own: those of the first
parameter that has some, else the client address, else the empty value. -/
def general (family : Family) (query : Query) (remoteAddr : Text) : List Text :=
  (firstEntries (part family) query (keysOf family)).getD
    (if isOf family (strip remoteAddr) then [strip remoteAddr] else [[]])

/-- Where entries come from that govern a family in general. -/
inductive Source (family : Family) (query : Query) (remoteAddr : Text) : List Text → Prop
  | parameter {key value : Text} (listed : key ∈ keysOf family)
      (given : query.reverse.lookup key = some value) :
      Source family query remoteAddr (considered value (separatorOf family))
  | client (separator : separatorOf family ∈ strip remoteAddr) :
      Source family query remoteAddr [strip remoteAddr]
  | nothing : Source family query remoteAddr [[]]

/-- What entries mean. The serializer trims the addresses. -/
inductive Means : List Text → UpdateAction → Prop
  | empty : Means [[]] (.setIPs [])
  | preserved : Means [preserve] .preserveIPs
  | subnet {entry : Text} {network : IPNetwork} (slash : '/' ∈ entry)
      (read : ipNetwork entry = .ok network) : Means [entry] (.updateWithSubnet network)
  | addresses {ips : List Text} (some : ips ≠ []) : Means (ips.map strip) (.setIPs ips)

/-- A character that neither separates tokens nor escapes others in a zone file. -/
def isPlainChar (c : Char) : Bool := !isSpace c && c ∉ [';', '(', ')', '"', '\\']

def Plain (text : Text) : Prop := ∀ c ∈ text, isPlainChar c = true

/-- An IPv6 network whose notation ends like an IPv4 address. -/
def DottedSubnet (entry : Text) : Prop := '/' ∈ entry ∧ '.' ∈ entry ∧ isOf .ipv6 entry = true

/-- An entry in which the separators tell the family, and that has no zone file syntax. -/
structure Tidy (entry : Text) : Prop where
  plain : Plain entry
  undotted : ¬ DottedSubnet entry

instance (text : Text) : Decidable (Plain text) :=
  List.decidableBAll (fun c => isPlainChar c = true) text

instance (entry : Text) : Decidable (DottedSubnet entry) :=
  inferInstanceAs (Decidable (_ ∧ _ ∧ _))

instance (entry : Text) : Decidable (Tidy entry) :=
  decidable_of_iff (Plain entry ∧ ¬ DottedSubnet entry)
    ⟨fun tidy => ⟨tidy.1, tidy.2⟩, fun tidy => ⟨tidy.plain, tidy.undotted⟩⟩

theorem typeOf_injective {one two : Family} (same : typeOf one = typeOf two) : one = two := by
  cases one <;> cases two <;> first | rfl | exact absurd same (by decide)

theorem separator_typeOf (family : Family) :
    (if typeOf family = "A".toList then '.' else ':') = separatorOf family := by
  cases family <;> decide

section Notation

variable {s : Text}

private theorem mem_of_length_split {sep : Char} (several : 1 < (split sep s).length) :
    sep ∈ s := by
  by_contra absent
  rw [split_of_not_mem absent, List.length_singleton] at several
  exact absurd several (lt_irrefl 1)

private theorem chars_of_ipv4FromString {ip : BitVec 32} (read : ipv4FromString s = some ip) :
    '.' ∈ s ∧ ∀ c ∈ s, c = '.' ∨ c.isDigit = true := by
  rw [ipv4FromString] at read
  split at read
  · cases read
  · next four =>
    obtain ⟨octets, parsed, -⟩ := Option.map_eq_some_iff.mp read
    refine ⟨mem_of_length_split (by omega), fun c inside => ?_⟩
    by_cases dot : c = '.'
    · exact .inl dot
    · obtain ⟨octet, found, within⟩ := exists_part_of_mem dot inside
      obtain ⟨n, -, one⟩ := Library.Runs.exists_of_forall₂_left
        (Library.Runs.mapM_eq_some_iff.mp parsed) found
      rw [parseOctet] at one
      split at one
      · cases one
      · split at one
        · cases one
        · next digits =>
          simp only [Bool.not_eq_true', Bool.not_eq_false] at digits
          exact .inr (List.all_eq_true.mp digits c within)

private theorem colon_mem_of_ipv6FromString {ip : BitVec 128} (read : ipv6FromString s = some ip) :
    ':' ∈ s := by
  obtain ⟨parts, found, -⟩ := Option.bind_eq_some_iff.mp read
  simp only [hextetParts] at found
  split at found
  · cases found
  · exact mem_of_length_split (by omega)

private theorem mem_of_splitScopeId {address : Text} {scopeId : Option Text}
    (divided : splitScopeId s = some (address, scopeId)) {c : Char} (inside : c ∈ address) :
    c ∈ s := by
  simp only [splitScopeId, partition] at divided
  split at divided
  · next same =>
    obtain ⟨rfl, -⟩ := Prod.mk.inj (Option.some.inj divided)
    exact (List.takeWhile_sublist _).mem ((Prod.mk.inj same).1 ▸ inside)
  · next same =>
    split at divided
    · cases divided
    · obtain ⟨rfl, -⟩ := Prod.mk.inj (Option.some.inj divided)
      exact (List.takeWhile_sublist _).mem ((Prod.mk.inj same).1 ▸ inside)

private theorem parts_of_splitOptionalNetmask {address : Text} {mask : Option Text}
    (divided : splitOptionalNetmask s = .ok (address, mask)) :
    split '/' s = address :: mask.toList := by
  rw [splitOptionalNetmask] at divided
  split at divided
  · next parts =>
    obtain ⟨rfl, rfl⟩ := Prod.mk.inj (Except.ok.inj divided)
    exact parts
  · next parts =>
    obtain ⟨rfl, rfl⟩ := Prod.mk.inj (Except.ok.inj divided)
    exact parts
  · cases divided

private theorem colon_not_mem_of_ipv4FromString {ip : BitVec 32}
    (read : ipv4FromString s = some ip) :
    ':' ∉ s := by
  intro inside
  rcases (chars_of_ipv4FromString read).2 ':' inside with dot | digit
  · exact absurd dot (by decide)
  · exact absurd digit (by decide)

private theorem colon_not_mem_of_makeNetmask {prefixlen : Nat}
    (made : makeNetmask s = .ok prefixlen) :
    ':' ∉ s := by
  rw [makeNetmask, bind_eq_ok_iff] at made
  obtain ⟨found, tried, made⟩ := made
  cases found with
  | none =>
    dsimp only at made
    rw [prefixFromIpString] at made
    split at made
    · cases made
    · next read => exact colon_not_mem_of_ipv4FromString read
  | some other =>
    have read := attempt_eq_some_iff.mp tried
    rw [prefixFromPrefixString] at read
    split at read
    · cases read
    · next digits =>
      rw [not_or, Bool.not_eq_true', Bool.not_eq_false] at digits
      intro inside
      exact absurd (List.all_eq_true.mp digits.2 ':' inside) (by decide)

private theorem chars_of_ipv4Network {network : Network 32} (read : ipv4Network s = .ok network) :
    '.' ∈ s ∧ ':' ∉ s := by
  rw [ipv4Network, bind_eq_ok_iff] at read
  obtain ⟨⟨address, mask⟩, divided, read⟩ := read
  have parts := parts_of_splitOptionalNetmask divided
  dsimp only at read
  split at read
  · cases read
  · next ip quad =>
    obtain ⟨prefixlen, masked, -⟩ := bind_eq_ok_iff.mp read
    constructor
    · exact mem_of_mem_part (parts ▸ List.mem_cons_self) (chars_of_ipv4FromString quad).1
    · intro inside
      have other : ':' ≠ '/' := by decide
      obtain ⟨found, member, within⟩ := exists_part_of_mem other inside
      rw [parts] at member
      rcases List.mem_cons.mp member with rfl | member
      · exact colon_not_mem_of_ipv4FromString quad within
      · cases mask with
        | none => cases member
        | some mask =>
          obtain rfl := List.mem_singleton.mp member
          exact colon_not_mem_of_makeNetmask masked within

private theorem colon_mem_of_ipv6Network {network : Network 128}
    (read : ipv6Network s = .ok network) :
    ':' ∈ s := by
  rw [ipv6Network, bind_eq_ok_iff] at read
  obtain ⟨⟨address, mask⟩, divided, read⟩ := read
  have parts := parts_of_splitOptionalNetmask divided
  dsimp only at read
  split at read
  · cases read
  · next ip groups =>
    obtain ⟨⟨inner, scopeId⟩, unscoped, hextets⟩ := Option.bind_eq_some_iff.mp groups
    have colon := mem_of_splitScopeId unscoped (colon_mem_of_ipv6FromString hextets)
    exact mem_of_mem_part (parts ▸ List.mem_cons_self) colon

end Notation

section Networks

variable {entry : Text} {network : IPNetwork}

private theorem ipNetwork_eq_ok_iff : ipNetwork entry = .ok network ↔
    (∃ n, ipv4Network entry = .ok n ∧ network = .ipv4 n) ∨
      (∀ n, ipv4Network entry ≠ .ok n) ∧ ∃ n, ipv6Network entry = .ok n ∧ network = .ipv6 n := by
  have failed {α : Type} {body : Except Raised α} (raises : RaisesValueError body)
      (fails : ∀ a, body ≠ .ok a) : attempt Raised.isValueError body = .ok none := by
    cases done : body with
    | ok a => exact absurd done (fails a)
    | error e => exact if_pos (raises e done)
  rw [ipNetwork]
  by_cases four : ∃ n, ipv4Network entry = .ok n
  · obtain ⟨n, read⟩ := four
    rw [read]
    simp [attempt, bind, Except.bind, pure, Except.pure, eq_comm]
  · rw [not_exists] at four
    rw [failed (raises_ipv4Network entry) four]
    by_cases six : ∃ n, ipv6Network entry = .ok n
    · obtain ⟨n, read⟩ := six
      rw [read]
      simp [four, attempt, bind, Except.bind, pure, Except.pure, eq_comm]
    · rw [not_exists] at six
      have none := failed (raises_ipv6Network entry) six
      simp [four, six, none, bind, Except.bind, throw, throwThe, MonadExceptOf.throw]

theorem isOf_iff {family : Family} :
    isOf family entry = true ↔ ∃ network, ipNetwork entry = .ok network ∧
      network.family = family := by
  rw [isOf]
  cases ipNetwork entry <;> simp

theorem separator_mem_of_isOf {family : Family} (applies : isOf family entry = true) :
    separatorOf family ∈ entry := by
  obtain ⟨network, read, rfl⟩ := isOf_iff.mp applies
  rcases ipNetwork_eq_ok_iff.mp read with ⟨n, four, rfl⟩ | ⟨-, n, six, rfl⟩
  · exact (chars_of_ipv4Network four).1
  · exact colon_mem_of_ipv6Network six

theorem isOf_of_separator {family : Family} (read : ipNetwork entry = .ok network)
    (slash : '/' ∈ entry) (separator : separatorOf family ∈ entry)
    (undotted : ¬ DottedSubnet entry) : network.family = family := by
  cases family with
  | ipv4 =>
    by_contra other
    have six : network.family = .ipv6 := by
      cases network with
      | ipv4 n => exact absurd rfl other
      | ipv6 n => rfl
    exact undotted ⟨slash, separator, isOf_iff.mpr ⟨network, read, six⟩⟩
  | ipv6 =>
    rcases ipNetwork_eq_ok_iff.mp read with ⟨n, four, rfl⟩ | ⟨-, n, six, rfl⟩
    · exact absurd separator (chars_of_ipv4Network four).2
    · rfl

theorem isOf_of_ipAddress {address : Address} (read : ipAddress entry = some address) :
    isOf address.family entry = true := by
  rw [ipAddress] at read
  split at read
  · cases read
  · next plain =>
    have undivided : splitOptionalNetmask entry = .ok (entry, none) := by
      rw [splitOptionalNetmask, split_of_not_mem plain]
    rw [isOf_iff]
    split at read
    · next ip quad =>
      obtain rfl := Option.some.inj read
      refine ⟨.ipv4 (.of ip 32 le_rfl), ipNetwork_eq_ok_iff.mpr (.inl ⟨_, ?_, rfl⟩), rfl⟩
      simp [ipv4Network, undivided, quad, networkOf, bind, Except.bind, pure, Except.pure]
    · next unread =>
      obtain ⟨⟨inner, scopeId⟩, unscoped, read⟩ := Option.bind_eq_some_iff.mp read
      obtain ⟨ip, groups, read⟩ := Option.bind_eq_some_iff.mp read
      obtain rfl := Option.some.inj read
      refine ⟨.ipv6 (.of ip 128 le_rfl),
        ipNetwork_eq_ok_iff.mpr (.inr ⟨fun n four => ?_, _, ?_, rfl⟩),
        rfl⟩
      · simp [ipv4Network, undivided, unread, bind, Except.bind, throw, throwThe,
          MonadExceptOf.throw] at four
      · simp [ipv6Network, undivided, unscoped, groups, networkOf, bind, Except.bind, pure,
          Except.pure]

end Networks

section Texts

theorem strip_of_plain {text : Text} (plain : Plain text) : strip text = text := by
  apply strip_eq_self
  intro c inside
  have visible := plain c inside
  rw [isPlainChar, Bool.and_eq_true, Bool.not_eq_true'] at visible
  exact visible.1

private theorem mem_toDigits {b n : Nat} (base : 1 < b) {c : Char} (inside : c ∈ Nat.toDigits b n) :
    ∃ d < b, c = Nat.digitChar d := by
  induction n using Nat.strongRecOn with
  | ind n ih =>
    rcases Nat.lt_or_ge n b with small | large
    · rw [Nat.toDigits_of_lt_base small, List.mem_singleton] at inside
      exact ⟨n, small, inside⟩
    · rw [Nat.toDigits_of_base_le base large, List.mem_append, List.mem_singleton] at inside
      rcases inside with before | last
      · exact ih (n / b) (Nat.div_lt_self (by omega) base) before
      · exact ⟨n % b, Nat.mod_lt n (by omega), last⟩

private theorem plain_toDigits {b n : Nat} (base : 1 < b) (small : b ≤ 16) :
    Plain (Nat.toDigits b n) := by
  have digits : ∀ d < 16, isPlainChar (Nat.digitChar d) = true := by decide
  intro c inside
  obtain ⟨d, less, rfl⟩ := mem_toDigits base inside
  exact digits d (by omega)

private theorem plain_join {sep : Text} {parts : List Text} (between : Plain sep)
    (each : ∀ piece ∈ parts, Plain piece) : Plain (join sep parts) := by
  intro c inside
  rcases mem_join inside with separator | ⟨piece, member, within⟩
  · exact between c separator
  · exact each piece member c within

private theorem plain_singleton {c : Char} (plain : isPlainChar c = true) : Plain [c] := by
  intro other inside
  rw [List.mem_singleton.mp inside]
  exact plain

theorem plain_ipv4String (ip : BitVec 32) : Plain (ipv4String ip) := by
  apply plain_join (plain_singleton (by decide))
  intro piece member
  obtain ⟨shift, -, rfl⟩ := List.mem_map.mp member
  exact plain_toDigits (by decide) (by decide)

private theorem mem_compressHextets {hextets : List Text} {piece : Text}
    (member : piece ∈ compressHextets hextets) : piece = [] ∨ piece ∈ hextets := by
  rw [compressHextets] at member
  dsimp only at member
  have empty {p : Prop} [Decidable p] (inside : piece ∈ if p then [([] : Text)] else []) :
      piece = [] := by
    split at inside
    · exact List.mem_singleton.mp inside
    · cases inside
  split at member
  · simp only [List.mem_append, List.mem_singleton] at member
    rcases member with (((first | before) | middle) | after) | last
    · exact .inl (empty first)
    · exact .inr (List.mem_of_mem_take before)
    · exact .inl middle
    · exact .inr (List.mem_of_mem_drop after)
    · exact .inl (empty last)
  · exact .inr member

private theorem plain_hextetString (n : Nat) : Plain (hextetString n) := by
  apply plain_join (plain_singleton (by decide))
  intro piece member
  rcases mem_compressHextets member with rfl | hextet
  · exact fun c inside => absurd inside List.not_mem_nil
  · obtain ⟨shift, -, rfl⟩ := List.mem_map.mp hextet
    exact plain_toDigits (by decide) (by decide)

theorem plain_ipv6String (ip : BitVec 128) : Plain (ipv6String ip) := by
  rw [ipv6String]
  split
  · intro c inside
    rcases List.mem_append.mp inside with hextets | rest
    · exact plain_hextetString _ c hextets
    · rcases List.mem_cons.mp rest with rfl | quad
      · decide
      · exact plain_ipv4String _ c quad
  · exact plain_hextetString _

end Texts

section Entries

variable {family : Family} {value : Text}

theorem mem_considered {separator : Char} {entry : Text} :
    entry ∈ considered value separator ↔ (∃ piece ∈ split ',' value, strip piece = entry) ∧
      (separator ∈ entry ∨ entry = [] ∨ entry = preserve) := by
  simp [considered, List.mem_filter, or_assoc]

private theorem map_strip_considered (separator : Char) :
    (considered value separator).map strip = considered value separator := by
  conv_rhs => rw [← List.map_id (considered value separator)]
  apply List.map_congr_left
  intro entry member
  obtain ⟨⟨piece, -, rfl⟩, -⟩ := mem_considered.mp member
  exact strip_strip piece

theorem considered_eq_part
    (applicable : ∀ entry ∈ considered value (separatorOf family), Applies family entry) :
    considered value (separatorOf family) = part family value := by
  rw [considered, part]
  congr 1
  apply List.filter_congr
  intro entry member
  rw [Bool.eq_iff_iff]
  simp only [Bool.or_eq_true, decide_eq_true_eq, or_assoc]
  constructor
  · intro considers
    apply applicable entry
    exact mem_considered.mpr ⟨List.mem_map.mp member, considers⟩
  · intro applies
    exact applies.imp_left separator_mem_of_isOf

theorem part_eq_nil (none : considered value (separatorOf family) = []) :
    part family value = [] := by
  rw [← considered_eq_part]
  · exact none
  · rw [none]
    exact fun entry member => absurd member List.not_mem_nil

private theorem firstEntries_part_none {query : Query} {keys : List Text}
    (nothing : firstEntries (considered · (separatorOf family)) query keys = none) :
    firstEntries (part family) query keys = none := by
  induction keys with
  | nil => rfl
  | cons key keys ih =>
    rw [firstEntries] at nothing ⊢
    cases found : query.reverse.lookup key with
    | none =>
      rw [found] at nothing
      exact ih nothing
    | some value =>
      rw [found] at nothing
      cases considers : considered value (separatorOf family) with
      | nil =>
        simp only [Option.map_some, considers] at nothing
        simp only [Option.map_some, part_eq_nil considers]
        exact ih nothing
      | cons entry entries => simp [considers] at nothing

private theorem firstEntries_part_some {query : Query} {keys entries : List Text}
    (first : firstEntries (considered · (separatorOf family)) query keys = some entries)
    (applicable : ∀ entry ∈ entries, Applies family entry) :
    firstEntries (part family) query keys = some entries := by
  induction keys with
  | nil => cases first
  | cons key keys ih =>
    rw [firstEntries] at first ⊢
    cases found : query.reverse.lookup key with
    | none =>
      rw [found] at first
      exact ih first
    | some value =>
      rw [found] at first
      cases considers : considered value (separatorOf family) with
      | nil =>
        simp only [Option.map_some, considers] at first
        simp only [Option.map_some, part_eq_nil considers]
        exact ih first
      | cons entry rest =>
        simp only [Option.map_some, considers, Option.some.injEq] at first
        subst first
        rw [← considers] at applicable
        rw [Option.map_some, ← considered_eq_part applicable, considers]

private theorem value_of_firstEntries {entriesOf : Text → List Text} {query : Query}
    {keys entries : List Text} (first : firstEntries entriesOf query keys = some entries) :
    ∃ key ∈ keys, ∃ value, query.reverse.lookup key = some value ∧ entries = entriesOf value := by
  induction keys with
  | nil => cases first
  | cons key keys ih =>
    rw [firstEntries] at first
    split at first
    · next entry rest found =>
      obtain ⟨value, given, same⟩ := Option.map_eq_some_iff.mp found
      exact ⟨key, List.mem_cons_self, value, given, same.trans (Option.some.inj first) |>.symm⟩
    · obtain ⟨other, listed, found⟩ := ih first
      exact ⟨other, List.mem_cons_of_mem key listed, found⟩

end Entries

section Actions

variable {key value remoteAddr : Text} {separator : Char} {query : Query}

private theorem eq_of_unpackOne {params : List Text} {param : Text}
    (unpacked : unpackOne params = .ok param) : params = [param] := by
  match params, unpacked with
  | [_], unpacked => rw [Except.ok.inj unpacked]

theorem means_of_getActionFromParam {action : UpdateAction}
    (done : getActionFromParam key value separator = .ok (some action)) :
    considered value separator ≠ [] ∧ Means (considered value separator) action := by
  rw [getActionFromParam] at done
  split at done
  · cases done
  · next something =>
    refine ⟨something, ?_⟩
    obtain ⟨found, tried, done⟩ := bind_eq_ok_iff.mp done
    have addresses : Means (considered value separator) (.setIPs (considered value separator)) := by
      have means := Means.addresses something
      rwa [map_strip_considered] at means
    cases found with
    | none =>
      dsimp only at done
      split at done
      · cases done
      · split at done
        · cases done
        · obtain rfl := Option.some.inj (Except.ok.inj done)
          exact addresses
    | some param =>
      have single := eq_of_unpackOne (attempt_eq_some_iff.mp tried)
      dsimp only at done
      split at done
      · next empty =>
        obtain rfl := Option.some.inj (Except.ok.inj done)
        rw [single, empty]
        exact .empty
      · split at done
        · next kept =>
          obtain rfl := Option.some.inj (Except.ok.inj done)
          rw [single, kept]
          exact .preserved
        · split at done
          · next slash =>
            obtain ⟨network, replaced, done⟩ := bind_eq_ok_iff.mp done
            obtain rfl := Option.some.inj (Except.ok.inj done)
            rw [single]
            exact .subnet slash (ok_of_replace replaced)
          · obtain rfl := Option.some.inj (Except.ok.inj done)
            exact addresses

theorem considered_of_getActionFromParam
    (done : getActionFromParam key value separator = .ok none) :
    considered value separator = [] := by
  by_contra something
  rw [getActionFromParam, if_neg something] at done
  obtain ⟨found, tried, done⟩ := bind_eq_ok_iff.mp done
  cases found with
  | none =>
    dsimp only at done
    split at done
    · cases done
    · split at done <;> cases done
  | some param =>
    dsimp only at done
    split at done
    · cases done
    · split at done
      · cases done
      · split at done
        · obtain ⟨network, -, done⟩ := bind_eq_ok_iff.mp done
          cases done
        · cases done

private theorem firstEntries_of_actionFromKeys {keys : List Text} {found : Option UpdateAction}
    (done : actionFromKeys query separator keys = .ok found) :
    (found = none ∧ firstEntries (considered · separator) query keys = none) ∨
      ∃ action entries, found = some action ∧ Means entries action ∧
        firstEntries (considered · separator) query keys = some entries := by
  induction keys with
  | nil => exact .inl ⟨(Except.ok.inj done).symm, rfl⟩
  | cons key keys ih =>
    rw [actionFromKeys] at done
    obtain ⟨value?, tried, done⟩ := bind_eq_ok_iff.mp done
    rw [queryParam] at tried
    rw [firstEntries]
    cases given : query.reverse.lookup key with
    | none =>
      rw [given] at tried
      obtain rfl := Except.ok.inj tried
      exact ih done
    | some value =>
      rw [given] at tried
      obtain rfl := Except.ok.inj tried
      obtain ⟨action?, read, done⟩ := bind_eq_ok_iff.mp done
      cases action? with
      | none =>
        rw [Option.map_some, considered_of_getActionFromParam read]
        exact ih done
      | some action =>
        obtain rfl := Except.ok.inj done
        obtain ⟨something, means⟩ := means_of_getActionFromParam read
        refine .inr ⟨action, _, rfl, means, ?_⟩
        rw [Option.map_some]
        cases considers : considered value separator with
        | nil => exact absurd considers something
        | cons entry entries => rfl

theorem general_of_findAction {family : Family} {action : UpdateAction}
    (done : findAction query remoteAddr (keysOf family) (separatorOf family) = .ok action) :
    ∃ entries, Means entries action ∧ Source family query remoteAddr entries ∧
      ((∀ entry ∈ entries, Applies family entry) →
        general family query remoteAddr = entries) := by
  rw [findAction] at done
  obtain ⟨found, tried, done⟩ := bind_eq_ok_iff.mp done
  rcases firstEntries_of_actionFromKeys tried with
    ⟨rfl, nothing⟩ | ⟨given, entries, rfl, means, first⟩
  · rw [general, firstEntries_part_none nothing, Option.getD_none]
    dsimp only at done
    split at done
    · next separator =>
      obtain rfl := Except.ok.inj done
      have kept : separatorOf family ∈ strip remoteAddr :=
        mem_strip separator (by cases family <;> decide)
      refine ⟨[strip remoteAddr], @Means.addresses [remoteAddr] (by simp), .client kept,
        fun applicable => ?_⟩
      rcases applicable _ (List.mem_singleton_self _) with applies | empty | same
      · rw [if_pos applies]
      · rw [empty] at kept
        exact absurd kept List.not_mem_nil
      · rw [same] at kept
        exact absurd kept (by cases family <;> decide)
    · next none =>
      obtain rfl := Except.ok.inj done
      refine ⟨[[]], .empty, .nothing, fun _ => if_neg fun applies => none ?_⟩
      exact mem_of_mem_strip (separator_mem_of_isOf applies)
  · obtain rfl := Except.ok.inj done
    refine ⟨entries, means, ?_, fun applicable => ?_⟩
    · obtain ⟨key, listed, value, found, rfl⟩ := value_of_firstEntries first
      exact .parameter listed found
    · rw [general, firstEntries_part_some first applicable, Option.getD_some]

end Actions

end DesecStack.DynDns.Families
