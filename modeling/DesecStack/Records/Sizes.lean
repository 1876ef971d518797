/- module: DesecStack/Records/Sizes
   source: api/desecapi/serializers/records.py 492-511, api/desecapi/dns.py 56-100
   digest: The size of an RRset on the wire, against the bound that is computed from its texts. -/

import DesecStack.Dns.LongQuotedTXT
import DesecStack.DynDns.Ipaddress
import DesecStack.Records.Serializer
import Mathlib.Algebra.BigOperators.Group.List.Basic
import Mathlib.Algebra.Order.BigOperators.Group.List
import Mathlib.Algebra.Order.Group.Nat
import Mathlib.Algebra.Ring.Int.Defs

set_option autoImplicit false
set_option relaxedAutoImplicit false

namespace DesecStack.Records.Sizes

open Library.PyText
open Changes.Pdns (constructName)
open Dns.LongQuotedTXT (Bytes counted)
open DynDns.Ipaddress (decimal hexadecimal ipv4String hextetString compressHextets Runs.next)
open Serializer (Context Attrs conservativeTotalLength validateLength)

/-! ### Records -/

/-- A part of a record between spaces: a number in so many bytes, an address, an absolute name
by its labels, a string of at most 255 bytes, or anything else, as it is written and encoded.
Names here are those that are written without escapes. -/
inductive Field where
  | number (width value : Nat) (fits : value < 256 ^ width)
  | ipv4 (ip : BitVec 32)
  | ipv6 (ip : BitVec 128)
  | host (labels : List Text)
  | string (s : Bytes) (short : s.length ≤ 255)
  | other (text : Text) (wire : Bytes)

abbrev Rdata := List Field

def backslash : Char := Char.ofNat 92

def digit (n : Nat) : Char := Char.ofNat (48 + n)

/-- One byte of a string, with quotes, backslashes and all but printable ASCII escaped. -/
def escape (b : UInt8) : Text :=
  if b = 34 ∨ b = 92 then [backslash, Char.ofNat b.toNat]
  else if 0x20 ≤ b ∧ b < 0x7f then [Char.ofNat b.toNat]
  else [backslash, digit (b.toNat / 100), digit (b.toNat / 10 % 10), digit (b.toNat % 10)]

def byte (c : Char) : UInt8 := UInt8.ofNat c.toNat

/-- An absolute name, in presentation format. -/
def hostText (labels : List Text) : Text :=
  if labels = [] then ['.'] else labels.flatMap (· ++ ['.'])

/-- The same on the wire, uncompressed: counted labels, and the root at the end. -/
def hostWire (labels : List Text) : Bytes :=
  labels.flatMap (fun label => counted (label.map byte)) ++ [0]

/-- The canonical presentation format of a field. -/
def Field.text : Field → Text
  | .number _ value _ => decimal value
  | .ipv4 ip => ipv4String ip
  | .ipv6 ip => hextetString ip.toNat
  | .host labels => hostText labels
  | .string s _ => '"' :: s.flatMap escape ++ ['"']
  | .other text _ => text

def Field.wire : Field → Bytes
  | .number width value _ =>
    (List.range width).map fun i => UInt8.ofNat (value / 256 ^ (width - 1 - i))
  | .ipv4 ip => (List.range 4).map fun i => UInt8.ofNat (ip.toNat / 256 ^ (3 - i))
  | .ipv6 ip => (List.range 16).map fun i => UInt8.ofNat (ip.toNat / 256 ^ (15 - i))
  | .host labels => hostWire labels
  | .string s _ => counted s
  | .other _ wire => wire

def text (record : Rdata) : Text := join [' '] (record.map Field.text)

def wire (record : Rdata) : Bytes := record.flatMap Field.wire

/-! ### The RRset -/

/-- The length on the wire of an absolute name, other than the root, without escapes. -/
def nameWireLength (name : Text) : Nat := (hostWire (split '.' name.dropLast)).length

/-- The query name, and for each record 12 bytes and its data. -/
def rrsetSize (subname domainName : Text) (records : List Rdata) : Nat :=
  nameWireLength (constructName subname domainName) +
    (records.map fun record => 12 + (wire record).length).sum

/-- An RRset whose length is accepted fits into a DNS message. -/
def Fits (ctx : Context) (subname : Text) (attrs : Attrs) (records : List Rdata) : Prop :=
  validateLength ctx attrs (records.map text) = .ok () →
    rrsetSize subname ctx.domainName records ≤ 65535

/-! ### What fields gain on the wire -/

/-- By how much a field is longer on the wire than in its text: an IPv6 address by up to 14
bytes, a name by the byte of the root, a number by its leading zeros. -/
def Field.gain : Field → ℤ
  | .number width value _ => width - (decimal value).length
  | .ipv4 ip => 4 - (ipv4String ip).length
  | .ipv6 ip => 16 - (hextetString ip.toNat).length
  | .host labels => if labels = [] then 0 else 1
  | .string s _ => s.length - (s.flatMap escape).length - 1
  | .other text wire => wire.length - text.length

/-- The same for a record, whose text has spaces in addition. -/
def gain (record : Rdata) : ℤ := (record.map Field.gain).sum - (record.length - 1 : Nat)

private theorem length_hostWire (labels : List Text) :
    (hostWire labels).length = (labels.map fun label => label.length + 1).sum + 1 := by
  rw [hostWire, List.length_append, List.length_flatMap, List.length_singleton]
  simp [counted]

private theorem length_hostText {labels : List Text} (something : labels ≠ []) :
    (hostText labels).length = (labels.map fun label => label.length + 1).sum := by
  rw [hostText, if_neg something, List.length_flatMap]
  simp

private theorem Field.length_wire (field : Field) :
    (field.wire.length : ℤ) = field.text.length + field.gain := by
  cases field with
  | number width value fits =>
    rw [wire, text, gain, List.length_map, List.length_range]
    omega
  | ipv4 ip =>
    rw [wire, text, gain, List.length_map, List.length_range]
    omega
  | ipv6 ip =>
    rw [wire, text, gain, List.length_map, List.length_range]
    omega
  | host labels =>
    rw [wire, text, gain]
    by_cases root : labels = []
    · subst root
      rfl
    · rw [if_neg root, length_hostWire, length_hostText root]
      omega
  | string s short =>
    rw [wire, text, gain, counted]
    simp only [List.length_cons, List.length_append, List.length_nil]
    omega
  | other text wire =>
    rw [Field.wire, Field.text, gain]
    omega

private theorem length_join (parts : List Text) :
    (join [' '] parts).length = (parts.map List.length).sum + (parts.length - 1) := by
  induction parts with
  | nil => rfl
  | cons part parts ih =>
    cases parts with
    | nil => simp [join, List.intercalate_singleton]
    | cons next rest =>
      rw [join] at ih ⊢
      rw [List.intercalate_cons_cons, List.length_append, List.length_append, ih]
      simp only [List.map_cons, List.sum_cons, List.length_cons, List.length_nil]
      omega

private theorem length_wire (record : Rdata) :
    ((wire record).length : ℤ) = (text record).length + gain record := by
  have fields : ((wire record).length : ℤ) =
      ((record.map Field.text).map List.length).sum + (record.map Field.gain).sum := by
    rw [wire]
    induction record with
    | nil => rfl
    | cons field record ih =>
      rw [List.flatMap_cons, List.length_append, List.map_cons, List.map_cons, List.map_cons,
        List.sum_cons, List.sum_cons]
      have one := field.length_wire
      omega
  rw [fields, text, length_join, gain, List.length_map]
  omega

private theorem nameWireLength_append_dot (name : Text) :
    nameWireLength (name ++ ['.']) = name.length + 2 := by
  have parts : ((split '.' name).map fun label => label.length + 1).sum = name.length + 1 := by
    induction name with
    | nil => simp [split]
    | cons c name ih =>
      obtain ⟨head, tail, whole⟩ := List.exists_cons_of_ne_nil (List.splitOn_ne_nil '.' name)
      rw [split, whole] at ih
      rw [split, List.splitOn_cons_eq_if_modifyHead, whole]
      simp only [List.map_cons, List.sum_cons] at ih
      split
      · simp only [List.map_cons, List.sum_cons, List.length_nil, List.length_cons]
        omega
      · simp only [List.modifyHead_cons, List.map_cons, List.sum_cons, List.length_cons]
        omega
  rw [nameWireLength, List.dropLast_concat, length_hostWire, parts]

private theorem nameWireLength_constructName (subname domainName : Text) :
    nameWireLength (constructName subname domainName) =
      (constructName subname domainName).length + 1 := by
  rw [constructName, nameWireLength_append_dot, List.length_append, List.length_singleton]

/-! ### The check -/

section Check

variable {ctx : Context} {subname : Text} {attrs : Attrs} {records : List Rdata}

/-- By how much the name of the RRset is longer than what the check takes for it: the subname is
left out where the request does not repeat it. -/
def omitted (ctx : Context) (subname : Text) (attrs : Attrs) : ℤ :=
  (constructName subname ctx.domainName).length -
    (constructName (attrs.subname.getD []) ctx.domainName).length

/-- The bound of the check. -/
def bound (ctx : Context) (attrs : Attrs) (records : List Rdata) : Nat :=
  conservativeTotalLength (attrs.subname.getD []) ctx.domainName (records.map text)

private theorem validateLength_iff :
    validateLength ctx attrs (records.map text) = .ok () ↔ bound ctx attrs records ≤ 65535 := by
  rw [validateLength, bound, ← not_lt]
  constructor
  · intro accepted excess
    rw [if_pos excess] at accepted
    cases accepted
  · intro short
    exact if_neg short

/-- By how many bytes an RRset is longer on the wire than its texts, beside what the check adds for
each name and record: the data of its records, and the part of its name that the request leaves out.
Negative where texts are longer. -/
def uncounted (ctx : Context) (subname : Text) (attrs : Attrs) (records : List Rdata) : ℤ :=
  omitted ctx subname attrs +
    (records.map fun record => ((wire record).length - (text record).length : ℤ)).sum

/-- The bound has 288 bytes of leeway, less one for the root of the name. -/
theorem rrsetSize_eq (ctx : Context) (subname : Text) (attrs : Attrs) (records : List Rdata) :
    (rrsetSize subname ctx.domainName records : ℤ) =
      bound ctx attrs records - 287 + uncounted ctx subname attrs records := by
  have contents : (((records.map fun record => 12 + (wire record).length).sum : Nat) : ℤ) =
      (((records.map text).map fun content => 12 + content.length).sum : Nat) +
        (records.map fun record => ((wire record).length - (text record).length : ℤ)).sum := by
    induction records with
    | nil => rfl
    | cons record records ih =>
      simp only [List.map_cons, List.sum_cons]
      omega
  rw [rrsetSize, nameWireLength_constructName, bound, conservativeTotalLength, uncounted, omitted]
  omega

/-- An RRset with no more than the leeway uncounted fits if it is accepted. -/
theorem fits_of_uncounted (within : uncounted ctx subname attrs records ≤ 287) :
    Fits ctx subname attrs records := by
  intro accepted
  rw [validateLength_iff] at accepted
  have size := rrsetSize_eq ctx subname attrs records
  omega

private theorem omitted_eq_zero (given : attrs.subname = some subname) :
    omitted ctx subname attrs = 0 := by
  rw [omitted, given, Option.getD_some]
  exact sub_self _

def aaaa (ip : BitVec 128) : Rdata := [.ipv6 ip]

/-- `NS`, and the other types with one name. -/
def ns (target : List Text) : Rdata := [.host target]

private theorem gain_ns {target : List Text} (name : target ≠ []) : gain (ns target) = 1 := by
  have one : (Field.host target).gain = 1 := if_neg name
  rw [gain, ns, List.map_singleton, one]
  rfl

private theorem uncounted_ns (given : attrs.subname = some subname) {targets : List (List Text)}
    (names : ∀ target ∈ targets, target ≠ []) :
    uncounted ctx subname attrs (targets.map ns) = targets.length := by
  rw [uncounted, omitted_eq_zero given, zero_add, List.map_map]
  induction targets with
  | nil => rfl
  | cons target targets ih =>
    have one := length_wire (ns target)
    rw [gain_ns (names target List.mem_cons_self)] at one
    rw [List.map_cons, List.sum_cons,
      ih fun other later => names other (List.mem_cons_of_mem _ later),
      Function.comp_apply, List.length_cons, one]
    omega

end Check

/-! ### Long names -/

def sampleContext : Context where
  unicode := .plain
  dns := ⟨∅, fun content _ => .ok content, fun _ content => content, fun _ _ => false⟩
  domainName := "example.com".toList
  rrsets := ∅
  minimumTtl := 60
  isLocallyRegistrable := false
  blockedSubnet _ := false
  hasObjectPermission _ := true
  isPost := true
  subnameKwarg := none

/-- A subname of 146 characters. -/
private def longSubname : Text :=
  join ['.'] [List.replicate 63 'a', List.replicate 63 'a', List.replicate 18 'a']

private def longAttrs : Attrs := ⟨some longSubname, none, none, none⟩

/-- A name of 214 characters, with a number of four digits. -/
private def longName (i : Nat) : List Text :=
  [decimal (1000 + i) ++ List.replicate 17 'a', List.replicate 63 'a', List.replicate 63 'a',
    List.replicate 63 'a']

private def longNames : List (List Text) := (List.range 288).map longName

private theorem nodup_longNames : (longNames.map ns).Nodup := by
  rw [longNames, List.map_map]
  apply List.Nodup.map_on _ List.nodup_range
  intro i _ j _ same
  have labels : longName i = longName j := by simpa [ns] using same
  have digits : decimal (1000 + i) = decimal (1000 + j) :=
    List.append_cancel_right (List.cons.inj labels).1
  have numbers : 1000 + i = 1000 + j := by
    rw [← Nat.ofDigitChars_ten_toDigits (n := 1000 + i),
      ← Nat.ofDigitChars_ten_toDigits (n := 1000 + j)]
    exact congrArg (Nat.ofDigitChars 10 · 0) digits
  omega

private theorem length_longName {i : Nat} (listed : i < 288) :
    (text (ns (longName i))).length = 214 := by
  have most : (decimal (1000 + i)).length ≤ 4 :=
    (Nat.length_toDigits_le_iff (by decide) (by decide)).mpr (by omega)
  have least : ¬ (decimal (1000 + i)).length ≤ 3 := by
    rw [decimal, Nat.length_toDigits_le_iff (by decide) (by decide)]
    omega
  rw [text, ns, List.map_singleton, join, List.intercalate_singleton, Field.text,
    length_hostText (by simp [longName])]
  simp only [longName, List.map_cons, List.map_nil, List.sum_cons, List.sum_nil,
    List.length_append, List.length_replicate]
  omega

private theorem texts_longNames :
    (((longNames.map ns).map text).map fun content => 12 + content.length).sum = 65088 := by
  have each : ∀ n ∈ ((longNames.map ns).map text).map fun content => 12 + content.length,
      n = 226 := by
    intro n inside
    rw [longNames, List.map_map, List.map_map, List.map_map] at inside
    obtain ⟨i, listed, rfl⟩ := List.mem_map.mp inside
    rw [List.mem_range] at listed
    show 12 + (text (ns (longName i))).length = 226
    rw [length_longName listed]
  apply (List.sum_eq_card_nsmul _ 226 each).trans
  rw [List.length_map, List.length_map, List.length_map, longNames, List.length_map,
    List.length_range]
  rfl

private theorem uncounted_longNames :
    uncounted sampleContext longSubname longAttrs (longNames.map ns) = 288 := by
  rw [uncounted_ns rfl, longNames, List.length_map, List.length_range]
  · rfl
  · intro target inside
    obtain ⟨i, -, rfl⟩ := List.mem_map.mp inside
    exact List.cons_ne_nil _ _

private theorem longNames_too_large :
    ¬ Fits sampleContext longSubname longAttrs (longNames.map ns) := by
  intro fits
  have name : (constructName longSubname sampleContext.domainName).length = 159 := by
    decide +kernel
  have total : bound sampleContext longAttrs (longNames.map ns) = 65535 := by
    rw [bound, conservativeTotalLength, longAttrs, Option.getD_some, name, texts_longNames]
  have size := rrsetSize_eq sampleContext longSubname longAttrs (longNames.map ns)
  rw [uncounted_longNames, total] at size
  have small := fits (validateLength_iff.mpr total.le)
  omega

private theorem hextetString_of_lt {n : Nat} (several : 16 ≤ n) (small : n < 2 ^ 16) :
    hextetString n = ':' :: ':' :: hexadecimal n := by
  have zero : hexadecimal 0 = ['0'] := Nat.toDigits_zero 16
  have high : ∀ shift, 16 ≤ shift → hexadecimal (n / 2 ^ shift % 2 ^ 16) = ['0'] := by
    intro shift large
    have below : n < 2 ^ shift := small.trans_le (Nat.pow_le_pow_right (by decide) large)
    rw [Nat.div_eq_of_lt below, Nat.zero_mod, zero]
  have low : hexadecimal (n / 2 ^ 0 % 2 ^ 16) = hexadecimal n := by
    rw [Nat.pow_zero, Nat.div_one, Nat.mod_eq_of_lt small]
  have other : hexadecimal n ≠ ['0'] := by
    intro same
    have short := (Nat.length_toDigits_le_iff (b := 16) (k := 1) (by decide) (by decide)).mp
      (congrArg List.length same).le
    omega
  have hextets : ([112, 96, 80, 64, 48, 32, 16, 0].map fun shift =>
      hexadecimal (n / 2 ^ shift % 2 ^ 16)) =
      [['0'], ['0'], ['0'], ['0'], ['0'], ['0'], ['0'], hexadecimal n] := by
    simp only [List.map_cons, List.map_nil, low, high 112 (by decide), high 96 (by decide),
      high 80 (by decide), high 64 (by decide), high 48 (by decide), high 32 (by decide),
      high 16 (by decide)]
  rw [hextetString, hextets]
  generalize hexadecimal n = last at other
  simp [compressHextets, Runs.next, other, join, List.intercalate_cons_cons]

def sampleAttrs : Attrs := ⟨some "www".toList, none, none, none⟩

/-- The addresses from `::1000` on. -/
def shortAddresses : List Rdata :=
  (List.range 2400).map fun i => aaaa (BitVec.ofNat 128 (0x1000 + i))

private theorem length_hextetString_short {i : Nat} (listed : i < 2400) :
    (hextetString (0x1000 + i)).length ≤ 6 := by
  have digits : (hexadecimal (0x1000 + i)).length ≤ 4 :=
    (Nat.length_toDigits_le_iff (by decide) (by decide)).mpr (by omega)
  rw [hextetString_of_lt (by omega) (by omega), List.length_cons, List.length_cons]
  omega

private theorem length_shortAddresses : shortAddresses.length = 2400 := by
  rw [shortAddresses, List.length_map, List.length_range]

private theorem short_contents :
    ∀ n ∈ (shortAddresses.map text).map fun content => 12 + content.length, n ≤ 18 := by
  intro n inside
  rw [shortAddresses, List.map_map, List.map_map] at inside
  obtain ⟨i, listed, rfl⟩ := List.mem_map.mp inside
  rw [List.mem_range] at listed
  have value : (BitVec.ofNat 128 (0x1000 + i)).toNat = 0x1000 + i := by
    rw [BitVec.toNat_ofNat]
    omega
  have content : text (aaaa (BitVec.ofNat 128 (0x1000 + i))) = hextetString (0x1000 + i) := by
    rw [text, aaaa, List.map_singleton, join, List.intercalate_singleton, Field.text, value]
  have short := length_hextetString_short listed
  show 12 + (text (aaaa (BitVec.ofNat 128 (0x1000 + i)))).length ≤ 18
  rw [content]
  omega

private theorem full_data :
    ∀ n ∈ shortAddresses.map fun record => 12 + (wire record).length, n = 28 := by
  intro n inside
  rw [shortAddresses, List.map_map] at inside
  obtain ⟨i, -, rfl⟩ := List.mem_map.mp inside
  show 12 + (wire (aaaa _)).length = 28
  rw [wire, aaaa, List.flatMap_singleton, Field.wire, List.length_map, List.length_range]

private theorem texts_shortAddresses :
    ((shortAddresses.map text).map fun content => 12 + content.length).sum ≤ 43200 := by
  apply (List.sum_le_card_nsmul _ 18 short_contents).trans
  rw [List.length_map, List.length_map, length_shortAddresses]
  decide

private theorem data_shortAddresses :
    (shortAddresses.map fun record => 12 + (wire record).length).sum = 67200 := by
  apply (List.sum_eq_card_nsmul _ 28 full_data).trans
  rw [List.length_map, length_shortAddresses]
  rfl

end DesecStack.Records.Sizes
