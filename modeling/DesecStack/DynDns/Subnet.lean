/- module: DesecStack/DynDns/Subnet
   source: api/desecapi/models/records.py
   digest: Records moved into a subnet: prefix and host bits, and the one family that is lost. -/

import DesecStack.DynDns.Ipaddress
import DesecStack.Library.Runs
import Mathlib.Data.List.ReduceOption

set_option autoImplicit false
set_option relaxedAutoImplicit false

namespace DesecStack.DynDns.Subnet

open Library.PyText (Text)
open Ipaddress

/-- One record of the comprehension in `replace_ip_subnet`, which is left out where its family
is not that of the subnet. -/
def rebase (subnet : IPNetwork) (content : Text) : Option (Option Text) := do
  let address ← ipAddress content
  if address.family = subnet.family then
    let prefixAddress ← ofInt subnet.addressInt
    let rebased ← prefixAddress.add (address.toInt &&& subnet.hostmaskInt)
    some (some rebased.str)
  else some none

/-- `replace_ip_subnet` of the contents of the records; `none` is `ValueError`. -/
def replaceIpSubnet (contents : List Text) (subnet : IPNetwork) : Option (List Text) :=
  (contents.mapM (rebase subnet)).map List.reduceOption

/-- The bits of an address, from the most significant one on. -/
def bit : Address → Nat → Bool
  | .ipv4 ip, i => ip.getMsbD i
  | .ipv6 ip _, i => ip.getMsbD i

def networkBit : IPNetwork → Nat → Bool
  | .ipv4 network, i => network.address.getMsbD i
  | .ipv6 network, i => network.address.getMsbD i

def prefixlen : IPNetwork → Nat
  | .ipv4 network => network.prefixlen
  | .ipv6 network => network.prefixlen

/-- An address of the family of the subnet, with the leading bits of the subnet and the
remaining bits of the old address. -/
def Rebased (subnet : IPNetwork) (old new : Address) : Prop :=
  new.family = subnet.family ∧
    ∀ i, bit new i = if i < prefixlen subnet then networkBit subnet i else bit old i

/-- The address with the leading bits of the subnet and its own remaining ones. -/
def moved : IPNetwork → Address → Address
  | .ipv4 network, .ipv4 ip =>
      .ipv4 (network.address ||| (ip &&& hostmask 32 network.prefixlen))
  | .ipv6 network, .ipv6 ip _ =>
      .ipv6 (network.address ||| (ip &&& hostmask 128 network.prefixlen)) none
  | _, address => address

/-- The records of the family of the subnet become one rebased address each, in their order. -/
def PreservesHostBits (subnet : IPNetwork) (contents : List Text) (addresses : List Address) :
    Prop :=
  ∃ results : List Address, replaceIpSubnet contents subnet = some (results.map Address.str) ∧
    List.Forall₂ (Rebased subnet)
      (addresses.filter fun address => address.family = subnet.family) results

section Bits

variable {w p : Nat}

private theorem getMsbD_netmask (i : Nat) : (netmask w p).getMsbD i = decide (i < p ∧ i < w) := by
  simp only [netmask, BitVec.getMsbD_xor, BitVec.getMsbD_allOnes, BitVec.getMsbD_ushiftRight]
  by_cases within : i < w
  · by_cases below : i < p
    · simp [within, below]
    · have rest : i - p < w := by omega
      simp [within, below, rest]
  · simp [within]

private theorem getMsbD_hostmask (i : Nat) : (hostmask w p).getMsbD i = decide (p ≤ i ∧ i < w) := by
  rw [hostmask, BitVec.getMsbD_xor, getMsbD_netmask, BitVec.getMsbD_allOnes]
  by_cases within : i < w
  · by_cases below : i < p
    · simp [within, below]
    · simp [within, below, Nat.le_of_not_lt below]
  · simp [within]

private theorem Network.getMsbD_address (network : Network w) (i : Nat) :
    network.address.getMsbD i = (decide (i < network.prefixlen) && network.address.getMsbD i) := by
  have kept := congrArg (fun address => address.getMsbD i) network.masked
  simp only [BitVec.getMsbD_and, getMsbD_netmask] at kept
  by_cases below : i < network.prefixlen
  · simp [below]
  · simpa [below] using kept.symm

private theorem and_hostmask_eq_zero (network : Network w) (ip : BitVec w) :
    network.address &&& (ip &&& hostmask w network.prefixlen) = 0#w := by
  apply BitVec.eq_of_getMsbD_eq
  intro i _
  rw [BitVec.getMsbD_and, BitVec.getMsbD_and, getMsbD_hostmask, Network.getMsbD_address]
  by_cases below : i < network.prefixlen
  · simp [below, Nat.not_le.mpr below]
  · simp [below]

private theorem toNat_prefix_add (network : Network w) (ip : BitVec w) :
    network.address.toNat + (ip.toNat &&& (hostmask w network.prefixlen).toNat) =
      (network.address ||| (ip &&& hostmask w network.prefixlen)).toNat := by
  have apart := and_hostmask_eq_zero network ip
  rw [← BitVec.add_eq_or_of_and_eq_zero _ _ apart, BitVec.toNat_add_of_and_eq_zero apart,
    BitVec.toNat_and]

private theorem getMsbD_prefix_or (network : Network w) (ip : BitVec w) (i : Nat) :
    (network.address ||| (ip &&& hostmask w network.prefixlen)).getMsbD i =
      if i < network.prefixlen then network.address.getMsbD i else ip.getMsbD i := by
  rw [BitVec.getMsbD_or, BitVec.getMsbD_and, getMsbD_hostmask]
  by_cases below : i < network.prefixlen
  · simp [below, Nat.not_le.mpr below]
  · rw [Network.getMsbD_address]
    by_cases within : i < w
    · simp [below, within, Nat.le_of_not_lt below]
    · simp [below, BitVec.getMsbD_of_ge _ _ (Nat.le_of_not_lt within)]

end Bits

/-- An IPv6 network whose address is taken for an IPv4 address by `ip_address` of an integer. -/
def Narrow (subnet : IPNetwork) : Prop :=
  subnet.family = .ipv6 ∧ subnet.addressInt < 2 ^ 32

section Rebasing

variable {subnet : IPNetwork} {content : Text} {address : Address}

theorem rebase_of_other (parsed : ipAddress content = some address)
    (other : address.family ≠ subnet.family) : rebase subnet content = some none := by
  simp [rebase, parsed, other]

private theorem ofInt_ipv4 (ip : BitVec 32) : ofInt ip.toNat = some (.ipv4 ip) := by
  rw [ofInt, if_pos ip.isLt, BitVec.ofNat_toNat, BitVec.setWidth_eq]

private theorem ofInt_ipv6 {ip : BitVec 128} (large : ¬ ip.toNat < 2 ^ 32) :
    ofInt ip.toNat = some (.ipv6 ip none) := by
  rw [ofInt, if_neg large, if_pos ip.isLt, BitVec.ofNat_toNat, BitVec.setWidth_eq]

private theorem add_ipv4 {ip sum : BitVec 32} {n : Nat} (total : ip.toNat + n = sum.toNat) :
    (Address.ipv4 ip).add n = some (.ipv4 sum) := by
  rw [Address.add, total, if_pos sum.isLt, BitVec.ofNat_toNat, BitVec.setWidth_eq]

private theorem add_ipv6 {ip sum : BitVec 128} {scopeId : Option Text} {n : Nat}
    (total : ip.toNat + n = sum.toNat) :
    (Address.ipv6 ip scopeId).add n = some (.ipv6 sum none) := by
  rw [Address.add, total, if_pos sum.isLt, BitVec.ofNat_toNat, BitVec.setWidth_eq]

private theorem rebased_moved (same : address.family = subnet.family) :
    Rebased subnet address (moved subnet address) := by
  cases subnet with
  | ipv4 network =>
    cases address with
    | ipv6 ip scopeId => exact absurd same (by simp [Address.family, IPNetwork.family])
    | ipv4 ip => exact ⟨rfl, getMsbD_prefix_or network ip⟩
  | ipv6 network =>
    cases address with
    | ipv4 ip => exact absurd same (by simp [Address.family, IPNetwork.family])
    | ipv6 ip scopeId => exact ⟨rfl, getMsbD_prefix_or network ip⟩

/-- A record of the family is rebased within its family, unless the network is narrow. -/
theorem rebase_of_same (parsed : ipAddress content = some address)
    (same : address.family = subnet.family) (wide : ¬ Narrow subnet) :
    rebase subnet content = some (some (moved subnet address).str) := by
  cases subnet with
  | ipv4 network =>
    cases address with
    | ipv6 ip scopeId => exact absurd same (by simp [Address.family, IPNetwork.family])
    | ipv4 ip =>
      have sum := add_ipv4 (toNat_prefix_add network ip)
      simp only [rebase, parsed, Option.bind_eq_bind, Option.bind_some, Address.family,
        IPNetwork.family, if_true, IPNetwork.addressInt, ofInt_ipv4, Address.toInt,
        IPNetwork.hostmaskInt, sum, moved]
  | ipv6 network =>
    cases address with
    | ipv4 ip => exact absurd same (by simp [Address.family, IPNetwork.family])
    | ipv6 ip scopeId =>
      have large : ¬ network.address.toNat < 2 ^ 32 := fun small => wide ⟨rfl, small⟩
      have sum := @add_ipv6 _ _ none _ (toNat_prefix_add network ip)
      simp only [rebase, parsed, Option.bind_eq_bind, Option.bind_some, Address.family,
        IPNetwork.family, if_true, IPNetwork.addressInt, ofInt_ipv6 large, Address.toInt,
        IPNetwork.hostmaskInt, sum, moved]

theorem rebase_of_narrow (parsed : ipAddress content = some address)
    (same : address.family = .ipv6) (narrow : Narrow subnet) {result : Option Text}
    (done : rebase subnet content = some result) : ∃ ip, result = some (ipv4String ip) := by
  obtain ⟨family, small⟩ := narrow
  simp only [rebase, parsed, Option.bind_eq_bind, Option.bind_some, same, family, if_true,
    ofInt, small, Option.bind_eq_some_iff, Address.add, Option.ite_none_right_eq_some,
    Option.some.injEq] at done
  obtain ⟨rebased, ⟨_, rfl⟩, rfl⟩ := done
  exact ⟨_, rfl⟩

theorem mem_replaceIpSubnet {contents results : List Text}
    (done : replaceIpSubnet contents subnet = some results) {text : Text} :
    text ∈ results ↔ ∃ content ∈ contents, rebase subnet content = some (some text) := by
  obtain ⟨rebased, all, rfl⟩ := Option.map_eq_some_iff.mp done
  have each := Library.Runs.mapM_eq_some_iff.mp all
  rw [List.reduceOption_mem_iff]
  constructor
  · intro member
    exact Library.Runs.exists_of_forall₂_left each.flip member
  · rintro ⟨content, inside, one⟩
    obtain ⟨result, member, same⟩ := Library.Runs.exists_of_forall₂_left each inside
    obtain rfl := Option.some.inj (same.symm.trans one)
    exact member

end Rebasing

section Main

variable {subnet : IPNetwork} {contents : List Text} {addresses : List Address}

private theorem preservesHostBits_of_wide
    (valid : List.Forall₂ (fun content address => ipAddress content = some address)
      contents addresses)
    (wide : ∀ address ∈ addresses, address.family = subnet.family → ¬ Narrow subnet) :
    PreservesHostBits subnet contents addresses := by
  suffices steps : ∃ results new, List.Forall₂ (fun content result =>
      rebase subnet content = some result) contents results ∧
      results.reduceOption = new.map Address.str ∧ List.Forall₂ (Rebased subnet)
        (addresses.filter fun address => address.family = subnet.family) new by
    obtain ⟨results, new, all, texts, related⟩ := steps
    refine ⟨new, ?_, related⟩
    rw [replaceIpSubnet, Library.Runs.mapM_eq_some_iff.mpr all, Option.map_some, texts]
  induction valid with
  | nil => exact ⟨[], [], .nil, rfl, .nil⟩
  | @cons content address contents addresses parsed _ ih =>
    obtain ⟨results, new, all, texts, related⟩ := ih fun other member =>
      wide other (List.mem_cons_of_mem _ member)
    by_cases same : address.family = subnet.family
    · have done := rebase_of_same parsed same (wide address (List.mem_cons_self ..) same)
      refine ⟨some (moved subnet address).str :: results, moved subnet address :: new,
        .cons done all, ?_, ?_⟩
      · simpa using texts
      · simpa [List.filter_cons, same] using ⟨rebased_moved same, related⟩
    · refine ⟨none :: results, new, .cons (rebase_of_other parsed same) all, ?_, ?_⟩
      · simpa using texts
      · simpa [List.filter_cons, same] using related

/-- An address that a result stands for is of the family of the subnet. -/
theorem not_preservesHostBits_of_narrow
    (valid : List.Forall₂ (fun content address => ipAddress content = some address)
      contents addresses)
    (narrow : Narrow subnet) {address : Address} (member : address ∈ addresses)
    (same : address.family = .ipv6) : ¬ PreservesHostBits subnet contents addresses := by
  rintro ⟨new, done, related⟩
  obtain ⟨results, all, texts⟩ := Option.map_eq_some_iff.mp done
  obtain ⟨content, here, parsed⟩ := Library.Runs.exists_of_forall₂_left valid.flip member
  obtain ⟨result, there, taken⟩ := Library.Runs.exists_of_forall₂_left
    (Library.Runs.mapM_eq_some_iff.mp all) here
  obtain ⟨ip, rfl⟩ := rebase_of_narrow parsed same narrow taken
  have listed : ipv4String ip ∈ new.map Address.str := by
    rw [← texts]
    exact List.reduceOption_mem_iff.mpr there
  obtain ⟨rebased, inside, same⟩ := List.mem_map.mp listed
  obtain ⟨old, _, family, _⟩ := Library.Runs.exists_of_forall₂_left related.flip inside
  apply colon_not_mem_ipv4String ip
  rw [← same, Address.colon_mem_str_iff, family, narrow.1]

/-- `replace_ip_subnet` keeps host bits and family exactly when no IPv6 record meets an IPv6
network whose address is below `2 ^ 32`. -/
theorem preservesHostBits_iff
    (valid : List.Forall₂ (fun content address => ipAddress content = some address)
      contents addresses) :
    PreservesHostBits subnet contents addresses ↔
      ¬ (Narrow subnet ∧ ∃ address ∈ addresses, address.family = .ipv6) := by
  constructor
  · rintro holds ⟨narrow, address, member, same⟩
    exact not_preservesHostBits_of_narrow valid narrow member same holds
  · intro free
    apply preservesHostBits_of_wide valid
    intro address member same narrow
    exact free ⟨narrow, address, member, same.trans narrow.1⟩

private def subnet₀ : IPNetwork :=
  .ipv6 (.of 0x20010db8000000010000000000000000#128 64 (by decide))

private def contents₀ : List Text :=
  ["2001:db8::1".toList, "192.0.2.7".toList, "2001:db8:0:2:a::7".toList]

/-- Two IPv6 records are moved into the subnet, and the IPv4 record is left out. -/
theorem preservesHostBits_documentation :
    PreservesHostBits subnet₀ contents₀ [.ipv6 0x20010db8000000000000000000000001#128 none,
      .ipv4 0xc0000207#32, .ipv6 0x20010db800000002000a000000000007#128 none] ∧
    replaceIpSubnet contents₀ subnet₀ =
      some ["2001:db8:0:1::1".toList, "2001:db8:0:1:a::7".toList] := by
  refine ⟨(preservesHostBits_iff ?_).mpr ?_, by decide⟩
  · exact .cons (by decide) (.cons (by decide) (.cons (by decide) .nil))
  · rintro ⟨⟨_, narrow⟩, _⟩
    exact absurd narrow (by decide)

/-- The record `2001:db8::1` and the subnet `::/64`: the result is `0.0.0.1`. -/
theorem family_lost :
    ¬ ∀ (subnet : IPNetwork) (contents : List Text) (addresses : List Address),
      List.Forall₂ (fun content address => ipAddress content = some address) contents addresses →
        PreservesHostBits subnet contents addresses := by
  intro holds
  have shown := holds (.ipv6 (.of 0#128 64 (by decide))) ["2001:db8::1".toList]
    [.ipv6 0x20010db8000000000000000000000001#128 none] (.cons (by decide) .nil)
  obtain ⟨new, done, related⟩ := shown
  have result : replaceIpSubnet ["2001:db8::1".toList] (.ipv6 (.of 0#128 64 (by decide))) =
      some ["0.0.0.1".toList] := by
    decide
  rw [result, Option.some.injEq] at done
  cases related with
  | cons rebased rest =>
    rename_i address new
    have texts : address.str = "0.0.0.1".toList := by
      simp only [List.map_cons, List.cons.injEq] at done
      exact done.1.symm
    have family : address.family = .ipv6 := rebased.1
    rw [← Address.colon_mem_str_iff, texts] at family
    exact absurd family (by decide)

end Main

end DesecStack.DynDns.Subnet
