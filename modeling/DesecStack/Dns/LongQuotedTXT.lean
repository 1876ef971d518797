/- module: DesecStack/Dns/LongQuotedTXT
   source: api/desecapi/dns.py 65-100
   digest: Splitting the long tokens of TXT and SPF records loses nothing and is stable. -/

import DesecStack.Library.Slices
import Mathlib.Data.List.Forall2

set_option autoImplicit false
set_option relaxedAutoImplicit false

namespace DesecStack.Dns.LongQuotedTXT

open Library.Slices

abbrev Bytes := List UInt8

/-- `file.write(struct.pack("!B", l))` and `file.write(s)`, after the assertion on `l`. -/
def writeCounted (file s : Bytes) : Option Bytes :=
  if s.length < 256 then some (file ++ UInt8.ofNat s.length :: s) else none

/-- `_to_wire`; none where the assertion fails. -/
def toWire (strings : List Bytes) : Option Bytes :=
  strings.foldlM (fun file longS => (slices 255 longS).foldlM writeCounted file) []

/-- `from_wire_parser` of the parent class: counted strings until nothing remains; none where
a string is cut off. -/
def fromWire : Bytes → Option (List Bytes)
  | [] => some []
  | l :: wire =>
      if wire.length < l.toNat then none
      else (fromWire (wire.drop l.toNat)).map (wire.take l.toNat :: ·)
  termination_by wire => wire.length
  decreasing_by
    rw [List.length_drop, List.length_cons]
    omega

/-- A string with its length in one byte before it. -/
def counted (s : Bytes) : Bytes := UInt8.ofNat s.length :: s

/-- The strings that the wire format of a record has for its tokens. -/
def chunks (strings : List Bytes) : List Bytes := strings.flatMap (slices 255)

private theorem foldlM_writeCounted {parts : List Bytes} (short : ∀ s ∈ parts, s.length ≤ 255)
    (file : Bytes) : parts.foldlM writeCounted file = some (file ++ parts.flatMap counted) := by
  induction parts generalizing file with
  | nil => simp
  | cons s parts ih =>
    have fits : s.length < 256 := Nat.lt_succ_of_le (short s List.mem_cons_self)
    rw [List.foldlM_cons, writeCounted, if_pos fits]
    simp only [Option.bind_eq_bind, Option.bind_some]
    rw [ih (fun s later => short s (List.mem_cons_of_mem _ later)), List.flatMap_cons, counted,
      List.append_assoc]

private theorem length_le_of_mem_chunks {strings : List Bytes} :
    ∀ s ∈ chunks strings, s.length ≤ 255 := by
  intro s inside
  obtain ⟨longS, -, part⟩ := List.mem_flatMap.mp inside
  exact length_le_of_mem_slices part

/-- The assertion never fails, and the wire format is that of the chunks. -/
theorem toWire_eq (strings : List Bytes) :
    toWire strings = some ((chunks strings).flatMap counted) := by
  have general : ∀ file, strings.foldlM
      (fun file longS => (slices 255 longS).foldlM writeCounted file) file =
        some (file ++ (chunks strings).flatMap counted) := by
    induction strings with
    | nil => simp [chunks]
    | cons longS strings ih =>
      intro file
      have short : ∀ s ∈ slices 255 longS, s.length ≤ 255 := fun s => length_le_of_mem_slices
      rw [List.foldlM_cons, foldlM_writeCounted short]
      simp only [Option.bind_eq_bind, Option.bind_some]
      rw [ih, chunks, chunks, List.flatMap_cons, List.flatMap_append, List.append_assoc]
  exact general []

private theorem fromWire_counted {s : Bytes} (short : s.length ≤ 255) (wire : Bytes) :
    fromWire (counted s ++ wire) = (fromWire wire).map (s :: ·) := by
  have length : (UInt8.ofNat s.length).toNat = s.length := by
    rw [UInt8.toNat_ofNat']
    omega
  rw [counted, List.cons_append, fromWire, length, if_neg (by simp), List.drop_left,
    List.take_left]

private theorem fromWire_flatMap {parts : List Bytes} (short : ∀ s ∈ parts, s.length ≤ 255) :
    fromWire (parts.flatMap counted) = some parts := by
  induction parts with
  | nil => rw [List.flatMap_nil, fromWire]
  | cons s parts ih =>
    rw [List.flatMap_cons, fromWire_counted (short s List.mem_cons_self),
      ih (fun s later => short s (List.mem_cons_of_mem _ later)), Option.map_some]

private theorem chunks_chunks (strings : List Bytes) :
    chunks (chunks strings) = chunks strings := by
  rw [chunks, chunks, List.flatMap_assoc]
  apply List.flatMap_congr
  intro longS _
  exact flatMap_slices_slices (by decide) longS

/-- How a token is divided: an empty one is one empty chunk; any other is cut into as few
chunks as possible, of 255 bytes each except for the last one. -/
structure Divided (longS : Bytes) (group : List Bytes) : Prop where
  whole : group.flatten = longS
  empty : longS = [] → group = [[]]
  number : longS ≠ [] → group.length = (longS.length + 254) / 255
  nonempty : longS ≠ [] → ∀ s ∈ group, s ≠ []
  full : ∀ s ∈ group.dropLast, s.length = 255

private theorem divided_slices (longS : Bytes) : Divided longS (slices 255 longS) where
  whole := flatten_slices (by decide) longS
  empty none := by rw [none, slices_of_le (by decide) (Nat.zero_le _)]
  number something := by
    have positive := List.length_pos_iff.mpr something
    rw [length_slices]
    congr 1
    omega
  nonempty := ne_nil_of_mem_slices (by decide) longS
  full := length_of_mem_dropLast_slices (by decide) longS

/-- The wire format of any tokens is a sequence of counted strings of at most 255 bytes, which
reading recovers: for each token in order a group that divides it. The strings that were read
have the same wire format. -/
theorem splitting_lossless (strings : List Bytes) :
    ∃ wire groups, toWire strings = some wire ∧
      List.Forall₂ Divided strings groups ∧
      (∀ s ∈ groups.flatten, s.length ≤ 255) ∧
      wire = groups.flatten.flatMap counted ∧
      fromWire wire = some groups.flatten ∧
      toWire groups.flatten = some wire := by
  refine ⟨(chunks strings).flatMap counted, strings.map (slices 255), toWire_eq strings, ?_, ?_⟩
  · rw [List.forall₂_map_right_iff, List.forall₂_same]
    intro longS _
    exact divided_slices longS
  · rw [← List.flatMap_def]
    refine ⟨length_le_of_mem_chunks, rfl, fromWire_flatMap length_le_of_mem_chunks, ?_⟩
    have stable := toWire_eq (chunks strings)
    rwa [chunks_chunks] at stable

example : toWire [[], [97, 98]] = some [0, 2, 97, 98] := by decide

end DesecStack.Dns.LongQuotedTXT
