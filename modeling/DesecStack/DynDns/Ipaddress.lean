/- module: DesecStack/DynDns/Ipaddress
   source: the module ipaddress of the Python standard library
   digest: IPv4 and IPv6 addresses and networks, with their integers and their notations. -/

import DesecStack.Library.PyText

set_option autoImplicit false
set_option relaxedAutoImplicit false

namespace DesecStack.DynDns.Ipaddress

open Library.PyText (Text split join mem_join)

/-- `IPv4Address` and `IPv6Address`, the latter with its scope id. -/
inductive Address where
  | ipv4 (ip : BitVec 32)
  | ipv6 (ip : BitVec 128) (scopeId : Option Text)
  deriving DecidableEq

/-- The class of an address, without the address. -/
inductive Family where
  | ipv4
  | ipv6
  deriving DecidableEq

def Address.family : Address → Family
  | .ipv4 _ => .ipv4
  | .ipv6 _ _ => .ipv6

/-- `int(address)` -/
def Address.toInt : Address → Nat
  | .ipv4 ip => ip.toNat
  | .ipv6 ip _ => ip.toNat

/-- `ip_address` of an integer: an IPv4 address wherever it fits. -/
def ofInt (n : Nat) : Option Address :=
  if n < 2 ^ 32 then some (.ipv4 (BitVec.ofNat 32 n))
  else if n < 2 ^ 128 then some (.ipv6 (BitVec.ofNat 128 n) none)
  else none

/-- `address + n`, which stays in the class of the address. -/
def Address.add : Address → Nat → Option Address
  | .ipv4 ip, n => if ip.toNat + n < 2 ^ 32 then some (.ipv4 (BitVec.ofNat 32 (ip.toNat + n)))
      else none
  | .ipv6 ip _, n =>
      if ip.toNat + n < 2 ^ 128 then some (.ipv6 (BitVec.ofNat 128 (ip.toNat + n)) none) else none

section Notation

/-- `'%d' % n` -/
def decimal (n : Nat) : Text := Nat.toDigits 10 n

/-- `'%x' % n` -/
def hexadecimal (n : Nat) : Text := Nat.toDigits 16 n

/-- `_BaseV4._string_from_ip_int` -/
def ipv4String (ip : BitVec 32) : Text :=
  join ['.'] ([24, 16, 8, 0].map fun shift => decimal (ip.toNat / 2 ^ shift % 2 ^ 8))

/-- The loop of `_compress_hextets`: where the best and the present run of zeros start, and
how long they are. -/
structure Runs where
  index : Nat
  bestStart : Nat
  bestLength : Nat
  start : Nat
  length : Nat

def Runs.next (runs : Runs) (hextet : Text) : Runs :=
  if hextet = ['0'] then
    let start := if runs.length = 0 then runs.index else runs.start
    let length := runs.length + 1
    if runs.bestLength < length then ⟨runs.index + 1, start, length, start, length⟩
    else ⟨runs.index + 1, runs.bestStart, runs.bestLength, start, length⟩
  else ⟨runs.index + 1, runs.bestStart, runs.bestLength, 0, 0⟩

/-- `_compress_hextets` -/
def compressHextets (hextets : List Text) : List Text :=
  let runs := hextets.foldl Runs.next ⟨0, 0, 0, 0, 0⟩
  if 1 < runs.bestLength then
    let stop := runs.bestStart + runs.bestLength
    (if runs.bestStart = 0 then [[]] else []) ++ hextets.take runs.bestStart ++ [[]] ++
      hextets.drop stop ++ (if stop = hextets.length then [[]] else [])
  else hextets

/-- `_BaseV6._string_from_ip_int` -/
def hextetString (n : Nat) : Text :=
  join [':'] (compressHextets
    ([112, 96, 80, 64, 48, 32, 16, 0].map fun shift => hexadecimal (n / 2 ^ shift % 2 ^ 16)))

/-- `IPv6Address.__str__` without the scope id; an IPv4-mapped address keeps its dots. -/
def ipv6String (ip : BitVec 128) : Text :=
  if ip.toNat / 2 ^ 32 = 0xffff then
    hextetString (ip.toNat / 2 ^ 32) ++ ':' :: ipv4String (ip.setWidth 32)
  else hextetString ip.toNat

/-- `str(address)` -/
def Address.str : Address → Text
  | .ipv4 ip => ipv4String ip
  | .ipv6 ip none => ipv6String ip
  | .ipv6 ip (some scopeId) => ipv6String ip ++ '%' :: scopeId

end Notation

section Parsing

/-- `_parse_octet` -/
def parseOctet (octet : Text) : Option Nat :=
  if octet = [] then none
  else if !octet.all Char.isDigit then none
  else if 3 < octet.length then none
  else if octet ≠ ['0'] ∧ octet.head? = some '0' then none
  else if 255 < Nat.ofDigitChars 10 octet 0 then none
  else some (Nat.ofDigitChars 10 octet 0)

/-- `_BaseV4._ip_int_from_string` -/
def ipv4FromString (s : Text) : Option (BitVec 32) :=
  if (split '.' s).length ≠ 4 then none
  else ((split '.' s).mapM parseOctet).map fun octets =>
    BitVec.ofNat 32 (octets.foldl (fun ip octet => 256 * ip + octet) 0)

/-- A digit of `_HEX_DIGITS`. -/
def hexDigit (c : Char) : Option Nat :=
  if c.isDigit then some (c.toNat - '0'.toNat)
  else if 'a' ≤ c ∧ c ≤ 'f' then some (c.toNat - 'a'.toNat + 10)
  else if 'A' ≤ c ∧ c ≤ 'F' then some (c.toNat - 'A'.toNat + 10)
  else none

/-- `_parse_hextet` -/
def parseHextet (hextet : Text) : Option Nat :=
  if hextet = [] ∨ 4 < hextet.length then none
  else (hextet.mapM hexDigit).map fun digits => digits.foldl (fun n digit => 16 * n + digit) 0

/-- The parts of an address, with a suffix in IPv4 notation as two hextets. -/
def hextetParts (s : Text) : Option (List Text) :=
  let parts := split ':' s
  if parts.length < 3 then none
  else
    let last := parts.getLastD []
    if '.' ∈ last then
      if '/' ∈ last then none
      else (ipv4FromString last).map fun ip => parts.dropLast ++
        [hexadecimal (ip.toNat / 2 ^ 16 % 2 ^ 16), hexadecimal (ip.toNat % 2 ^ 16)]
    else some parts

/-- How many parts stand before and after the double colon, which is given by its index. -/
def partsAround (parts : List Text) (skip : Nat) : Option (Nat × Nat) :=
  if parts.head? = some [] ∧ skip ≠ 1 then none
  else if parts.getLast? = some [] ∧ skip + 2 ≠ parts.length then none
  else
    let high := if parts.head? = some [] then 0 else skip
    let low := if parts.getLast? = some [] then 0 else parts.length - skip - 1
    if 8 ≤ high + low then none else some (high, low)

def hextetsToInt (hextets : List Nat) : Nat :=
  hextets.foldl (fun ip hextet => 2 ^ 16 * ip + hextet) 0

/-- `_BaseV6._ip_int_from_string` -/
def ipv6FromString (s : Text) : Option (BitVec 128) := do
  let parts ← hextetParts s
  if 9 < parts.length then none
  else
    match (List.range parts.length).filter fun i =>
        0 < i && i + 1 < parts.length && parts[i]? = some [] with
    | [] =>
        if parts.length ≠ 8 then none
        else (parts.mapM parseHextet).map fun hextets => BitVec.ofNat 128 (hextetsToInt hextets)
    | [skip] => do
        let (high, low) ← partsAround parts skip
        let above ← (parts.take high).mapM parseHextet
        let below ← (parts.drop (parts.length - low)).mapM parseHextet
        some (BitVec.ofNat 128 (hextetsToInt above * 2 ^ (16 * (8 - high)) + hextetsToInt below))
    | _ => none

/-- `_split_scope_id` -/
def splitScopeId (s : Text) : Option (Text × Option Text) :=
  match Library.PyText.partition '%' s with
  | (address, none) => some (address, none)
  | (address, some scopeId) =>
      if scopeId = [] ∨ '%' ∈ scopeId then none else some (address, some scopeId)

/-- `ip_address` of a text; `none` is `ValueError`. -/
def ipAddress (s : Text) : Option Address :=
  if '/' ∈ s then none
  else match ipv4FromString s with
    | some ip => some (.ipv4 ip)
    | none => do
        let (address, scopeId) ← splitScopeId s
        let ip ← ipv6FromString address
        some (.ipv6 ip scopeId)

end Parsing

section Networks

/-- `int(netmask)` of a prefix length. -/
def netmask (w prefixlen : Nat) : BitVec w := BitVec.allOnes w ^^^ (BitVec.allOnes w >>> prefixlen)

/-- `int(hostmask)` of a prefix length. -/
def hostmask (w prefixlen : Nat) : BitVec w := netmask w prefixlen ^^^ BitVec.allOnes w

/-- `IPv4Network` or `IPv6Network`, with no host bits in the address. -/
structure Network (w : Nat) where
  address : BitVec w
  prefixlen : Nat
  le : prefixlen ≤ w
  masked : address &&& netmask w prefixlen = address

/-- The network of an address that may have host bits. -/
def Network.of {w : Nat} (ip : BitVec w) (prefixlen : Nat) (le : prefixlen ≤ w) : Network w :=
  ⟨ip &&& netmask w prefixlen, prefixlen, le, by rw [BitVec.and_assoc, BitVec.and_self]⟩

inductive IPNetwork where
  | ipv4 (network : Network 32)
  | ipv6 (network : Network 128)

def IPNetwork.family : IPNetwork → Family
  | .ipv4 _ => .ipv4
  | .ipv6 _ => .ipv6

/-- `int(network_address)` -/
def IPNetwork.addressInt : IPNetwork → Nat
  | .ipv4 network => network.address.toNat
  | .ipv6 network => network.address.toNat

/-- `int(hostmask)` -/
def IPNetwork.hostmaskInt : IPNetwork → Nat
  | .ipv4 network => (hostmask 32 network.prefixlen).toNat
  | .ipv6 network => (hostmask 128 network.prefixlen).toNat

end Networks

section Families

private theorem separator_mem_join {c : Char} {parts : List Text} (several : 2 ≤ parts.length) :
    c ∈ join [c] parts := by
  match parts, several with
  | first :: second :: rest, _ => simp [join, List.intercalate]

private theorem two_le_length_compressHextets {hextets : List Text} (several : 2 ≤ hextets.length) :
    2 ≤ (compressHextets hextets).length := by
  rw [compressHextets]
  dsimp only
  split
  · simp only [List.length_append, List.length_take, List.length_drop, List.length_singleton]
    split <;> grind
  · exact several

private theorem colon_mem_hextetString (n : Nat) : ':' ∈ hextetString n := by
  apply separator_mem_join
  apply two_le_length_compressHextets
  simp

private theorem colon_mem_ipv6String (ip : BitVec 128) : ':' ∈ ipv6String ip := by
  rw [ipv6String]
  split
  · exact List.mem_append_left _ (colon_mem_hextetString _)
  · exact colon_mem_hextetString _

theorem colon_not_mem_ipv4String (ip : BitVec 32) : ':' ∉ ipv4String ip := by
  intro member
  rcases mem_join member with separator | ⟨part, inside, digit⟩
  · exact absurd separator (by decide)
  · obtain ⟨shift, _, rfl⟩ := List.mem_map.mp inside
    have numeral := Nat.isDigit_of_mem_toDigits (by decide) (by decide) digit
    exact absurd numeral (by decide)

theorem Address.colon_mem_str_iff {address : Address} :
    ':' ∈ address.str ↔ address.family = .ipv6 := by
  match address with
  | .ipv4 ip => simp [Address.str, Address.family, colon_not_mem_ipv4String ip]
  | .ipv6 ip none => simp [Address.str, Address.family, colon_mem_ipv6String ip]
  | .ipv6 ip (some scopeId) => simp [Address.str, Address.family, colon_mem_ipv6String ip]

end Families

end DesecStack.DynDns.Ipaddress
