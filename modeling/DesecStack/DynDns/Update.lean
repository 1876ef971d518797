/- module: DesecStack/DynDns/Update
   source: api/desecapi/views/dyndns.py 282-386
   digest: A dynDNS request up to the RRsets that it leaves, one address family apart from the
     other. -/

import DesecStack.DynDns.Families
import DesecStack.DynDns.Interpretation
import DesecStack.DynDns.Saved
import DesecStack.DynDns.Subnet

set_option autoImplicit false
set_option relaxedAutoImplicit false

namespace DesecStack.DynDns.Update

open Library.PyText
open Library.Raising
open Library.Runs (bind_eq_ok_iff mapM_eq_ok_iff)
open Changes.Models
open Records.Serializer (Dns)
open Records.Save (Env)
open Domains.Resolution
open Views.Writes (Site Caller Refusal dynDnsQueryset dynDnsSave envOf)
open Ipaddress
open Actions
open Families
open Subnet
open Channels (User Extra Foreign zoneOf mem_of_zoneOf not_mem_of_passes)
open Names.Grammar (forall_char domainNamePattern_iff newline_not_mem_of_matched chomp)
open Names.Qnames (runNameValidators)
open Names.Validators (validateDomainName)
open Interpretation
open Saved

/-- A dict of items: each key where it came first, with its last value. -/
def lastValues {κ β : Type} [DecidableEq κ] (items : List (κ × β)) : List (κ × β) :=
  (items.map Prod.fst).reverse.dedup.reverse.filterMap fun key =>
    (items.reverse.lookup key).map fun value => (key, value)

/-- `subname_actions` -/
def subnameActions (addressed : Addressed) : List (Item × Option UpdateAction) :=
  lastValues ((addressed.subnames.flatMap fun subname =>
    [(("A".toList, subname), some addressed.actionA),
      (("AAAA".toList, subname), some addressed.actionAAAA)]) ++ addressed.extraActions)

/-- `subname_records[subname]` -/
def subnameRecords (site : Site) (rrsets : RRsets) (queryset : Finset Item) (subname : Text) :
    List Text :=
  ["A".toList, "AAAA".toList].flatMap fun type =>
    if (type, subname) ∈ queryset then
      (rrsets.lookup (type, subname)).elim [] fun rrset => site.contents.visit rrset.records
    else []

/-- `_get_records` -/
def getRecords (contents : List Text) : Option UpdateAction → Except Raised (Option (List Text))
  | some (.setIPs ips) => .ok (some ips)
  | some (.updateWithSubnet subnet) =>
    match replaceIpSubnet contents subnet with
    | some moved => .ok (some moved)
    | none => .error .valueError
  | some .preserveIPs | none => .ok none

/-- `data`, of the actions for RRsets and the records of each subname. -/
def rowsOf (recordsAt : Text → List Text) (actions : List (Item × Option UpdateAction)) :
    Except Raised (List (Item × List Text)) := do
  let rows ← actions.mapM fun entry => do
    let records ← getRecords (recordsAt entry.1.2) entry.2
    pure (records.map fun contents => (entry.1, contents))
  pure rows.reduceOption

/-- Why a request has no effect: an exception of the view itself, or a refusal on the way to the
records and in the serializer. -/
inductive Failed where
  | raised (e : Raised)
  | refused (refusal : Refusal)

/-- `DynDNS12UpdateView.get`, answered with `good`. -/
def get (site : Site) (caller : Caller) (db : Database) (domains : DomainTable site.unicode)
    (user : User) (request : Request) : Except Failed Database := do
  let addressed ← (interpret domains user request).mapError .raised
  let subnames := addressed.subnames ++ addressed.extraActions.map fun entry => entry.1.2
  let rrsets ← (Views.Writes.domain caller db addressed.domain.name).mapError .refused
  let recordsAt := subnameRecords site rrsets (dynDnsQueryset rrsets subnames)
  let rows ← (rowsOf recordsAt (subnameActions addressed)).mapError .raised
  (dynDnsSave site caller db addressed.domain.name subnames rows).mapError .refused

/-! ### What a request asks for -/

/-- The entries that govern the RRset of a family at a host, if the request says something about
it: those of the parameter for the host, else, at the main hosts, those in general. -/
def governing (family : Family) (request : Request) (names : List Text) (extra : Extra)
    (host : Text) : Option (List Text) :=
  match extra.lookup (host, typeOf family) with
  | some value => some (part family value) |>.filter (· ≠ [])
  | none => if host ∈ names then some (general family request.query request.remoteAddr) else none

/-- The addresses of a family in an RRset, moved into a subnet. -/
def movedTexts (family : Family) (subnet : IPNetwork) (before : Option RRset) : Finset Text :=
  (before.elim ∅ RRset.records).biUnion fun content =>
    match ipAddress content with
    | some address => if address.family = family then {(moved subnet address).str} else ∅
    | none => ∅

/-- The addresses that entries stand for. -/
def addresses (family : Family) (before : Option RRset) : List Text → Finset Text
  | [entry] =>
    match ipNetwork entry with
    | .ok subnet => if '/' ∈ entry then movedTexts family subnet before else {entry}
    | .error _ => ∅
  | entries => entries.toFinset

/-- The canonical forms of records. -/
def canonical (dns : Dns) (type : Text) (records : Finset Text) : Finset Text :=
  records.biUnion fun record => (dns.canonical record type).toOption.toFinset

/-- The RRset that entries ask for, depending on the one before. -/
def outcome (dns : Dns) (family : Family) (before : Option RRset) (entries : List Text) :
    Option RRset :=
  if entries = [preserve] then before
  else if addresses family before entries = ∅ then none
  else some ⟨60, canonical dns (typeOf family) (addresses family before entries)⟩

/-- The host is one of the main ones, or has a parameter of its own. -/
def IsHost (names : List Text) (extra : Extra) (host : Text) : Prop :=
  host ∈ names ∨ host ∈ extra.keys.map Prod.fst

/-- Each RRset with addresses at a host is what the entries that govern it ask for, and no other
RRset has changed. -/
structure KeepsApart (dns : Dns) (d : Domain) (names : List Text) (extra : Extra)
    (request : Request) (before after : Database) : Prop where
  hosts (family : Family) (host : Text) (isHost : IsHost names extra host) :
    value after d.name (typeOf family, subname host d) =
      (governing family request names extra host).elim
        (value before d.name (typeOf family, subname host d))
        (outcome dns family (value before d.name (typeOf family, subname host d)))
  others (name : Text) (item : Item) (changed : value after name item ≠ value before name item) :
    name = d.name ∧ ∃ family host, IsHost names extra host ∧ item = (typeOf family, subname host d)

/-! ### What the library and the database are relied on for -/

/-- dnspython reads plain texts as records with addresses only if `ipaddress` reads them as
addresses of the family, gives addresses as canonical forms, and keeps these. -/
structure ReadsAddresses (dns : Dns) : Prop where
  reads (family : Family) (text form : Text) (plain : Plain text)
    (done : dns.canonical text (typeOf family) = .ok form) :
    ∃ address, ipAddress text = some address ∧ address.family = family
  forms (family : Family) (text form : Text)
    (done : dns.canonical text (typeOf family) = .ok form) :
    ∃ address, ipAddress form = some address ∧ address.family = family
  stable (family : Family) (text form : Text)
    (done : dns.canonical text (typeOf family) = .ok form) :
    dns.canonical form (typeOf family) = .ok form

/-- The RRsets with addresses have addresses of their family. -/
def StoresAddresses (db : Database) : Prop :=
  ∀ name family subname rrset, value db name (typeOf family, subname) = some rrset →
    ∀ content ∈ rrset.records, ∃ address, ipAddress content = some address ∧
      address.family = family

/-- The value of a parameter with addresses. -/
def AddressValue (unicode : Unicode) (query : Query) (value : Text) : Prop :=
  (∃ family, ∃ key ∈ keysOf family, query.reverse.lookup key = some value) ∨
    ∃ extra key, extraQnameParams unicode query = .ok extra ∧ extra.lookup key = some value

/-- The entries of the parameters with addresses and the client address are tidy. -/
structure TidyRequest (unicode : Unicode) (request : Request) : Prop where
  entries (value : Text) (given : AddressValue unicode request.query value) (piece : Text)
    (member : piece ∈ split ',' value) : Tidy (strip piece)
  client : Tidy (strip request.remoteAddr)

section Dicts

variable {κ β : Type} [DecidableEq κ] {items earlier later : List (κ × β)} {key : κ} {value : β}

private theorem mem_of_lookup (found : items.lookup key = some value) : (key, value) ∈ items := by
  obtain ⟨before, after, rfl, -⟩ := List.lookup_eq_some_iff.mp found
  simp

private theorem lookup_of_mem (member : (key, value) ∈ items)
    (single : ∀ other, (key, other) ∈ items → other = value) : items.lookup key = some value := by
  cases found : items.lookup key with
  | none =>
    have apart := List.lookup_eq_none_iff.mp found (key, value) member
    simp at apart
  | some other => rw [single other (mem_of_lookup found)]

private theorem mem_lastValues :
    (key, value) ∈ lastValues items ↔ items.reverse.lookup key = some value := by
  rw [lastValues, List.mem_filterMap]
  constructor
  · rintro ⟨other, -, found⟩
    obtain ⟨last, isLast, same⟩ := Option.map_eq_some_iff.mp found
    obtain ⟨rfl, rfl⟩ := Prod.mk.inj same
    exact isLast
  · intro found
    refine ⟨key, ?_, by rw [found]; rfl⟩
    have member := List.mem_reverse.mp (mem_of_lookup found)
    simpa using ⟨value, member⟩

private theorem mem_of_mem_lastValues (member : (key, value) ∈ lastValues items) :
    (key, value) ∈ items :=
  List.mem_reverse.mp (mem_of_lookup (mem_lastValues.mp member))

private theorem mem_lastValues_of_later (member : (key, value) ∈ later)
    (single : ∀ other, (key, other) ∈ later → other = value) {other : β} :
    (key, other) ∈ lastValues (earlier ++ later) ↔ value = other := by
  have last : later.reverse.lookup key = some value :=
    lookup_of_mem (List.mem_reverse.mpr member) fun other there =>
      single other (List.mem_reverse.mp there)
  rw [mem_lastValues, List.reverse_append, List.lookup_append, last, Option.some_or,
    Option.some.injEq]

private theorem mem_lastValues_of_earlier (absent : ∀ other, (key, other) ∉ later)
    (single : ∀ other, (key, other) ∈ earlier → other = value) {other : β} :
    (key, other) ∈ lastValues (earlier ++ later) ↔ (key, other) ∈ earlier := by
  have nothing : later.reverse.lookup key = none := by
    rw [Option.eq_none_iff_forall_ne_some]
    intro other found
    exact absent other (List.mem_reverse.mp (mem_of_lookup found))
  rw [mem_lastValues, List.reverse_append, List.lookup_append, nothing, Option.none_or]
  constructor
  · intro found
    exact List.mem_reverse.mp (mem_of_lookup found)
  · intro member
    obtain rfl := single other member
    exact lookup_of_mem (List.mem_reverse.mpr member) fun other there =>
      single other (List.mem_reverse.mp there)

theorem nodup_lastValues (items : List (κ × β)) : ((lastValues items).map Prod.fst).Nodup := by
  have own {key other : κ} (given : other ∈ ((items.reverse.lookup key).map fun value =>
      (key, value)).map Prod.fst) : key = other := by
    rw [Option.map_map] at given
    obtain ⟨value, -, same⟩ := Option.map_eq_some_iff.mp given
    exact same
  rw [lastValues, List.map_filterMap]
  apply List.Nodup.filterMap
  · intro key key' other one two
    rw [own one, own two]
  · exact List.nodup_reverse.mpr (List.nodup_dedup _)

end Dicts

section Hosts

variable {unicode : Unicode} {domains : DomainTable unicode} {user : User} {d : Domain}

private theorem newline_or_foreign (c : Char) :
    (isPlain c && isSpace c) = true → c = '\n' ∨ Foreign c := by
  unfold Foreign
  induction c using forall_char with
  | ascii n small =>
    revert n
    decide
  | letters n listed =>
    revert n
    decide
  | others c unusual => simp [unusual]

private theorem mem_dropLast_removePrefix {s start : Text} {c : Char} (inside : c ∈ s.dropLast)
    (other : c ∉ start) : c ∈ (removePrefix s start).dropLast := by
  rw [removePrefix]
  split
  · next begins =>
    obtain ⟨rest, rfl⟩ := startsWith_iff.mp begins
    rw [List.drop_left]
    cases rest with
    | nil =>
      rw [List.append_nil] at inside
      exact absurd (List.mem_of_mem_dropLast inside) other
    | cons first rest =>
      rw [List.dropLast_append_of_ne_nil (List.cons_ne_nil _ _), List.mem_append] at inside
      exact inside.resolve_left other
  · exact inside

private theorem newline_not_mem_of_passes (narrow : Narrow unicode) {qname : Text}
    (passed : passes unicode qname = true) : '\n' ∉ qname.dropLast := by
  intro inside
  have rest := @mem_dropLast_removePrefix _ "*.".toList _ inside (by decide)
  have simple := simple_removePrefix (simple_of_passes narrow passed)
  have lowered : '\n' ∈ (unicode.lower (removePrefix qname "*.".toList)).dropLast := by
    rw [lower_of_simple simple, ← List.map_dropLast]
    exact List.mem_map.mpr ⟨'\n', rest, by decide⟩
  rw [passes, runNameValidators, Bool.or_eq_true, Bool.and_eq_true] at passed
  rcases passed with empty | ⟨valid, -⟩
  · rw [of_decide_eq_true empty] at lowered
    exact List.not_mem_nil lowered
  · rw [validateDomainName, Bool.and_eq_true, domainNamePattern_iff] at valid
    apply newline_not_mem_of_matched valid.2
    rw [chomp]
    split
    · exact lowered
    · exact List.mem_of_mem_dropLast lowered

theorem strip_subname (narrow : Narrow unicode) {qname : Text} {owner : Nat}
    (found : d ∈ domains.filterQname qname owner) :
    strip (subname qname d) = subname qname d := by
  obtain ⟨passed, encloses⟩ := (mem_filterQname d).mp found
  rcases subname_cases encloses.2.2 with ⟨-, apex⟩ | whole
  · rw [apex]
    rfl
  · apply strip_eq_self
    intro c inside
    have within : c ∈ qname := by
      rw [whole]
      exact List.mem_append_left _ inside
    have before : c ∈ qname.dropLast := by
      rw [whole, List.dropLast_append_of_ne_nil (List.cons_ne_nil _ _)]
      exact List.mem_append_left _ inside
    rw [← Bool.not_eq_true]
    intro space
    have plain := (simple_of_passes narrow passed c within).1
    rcases newline_or_foreign c (by rw [plain, space]; rfl) with rfl | foreign
    · exact newline_not_mem_of_passes narrow passed before
    · exact not_mem_of_passes narrow passed foreign within

private theorem zones_of_domain {names : List Text} (found : domain domains user names = .ok d) :
    ∀ qname ∈ names, d ∈ domains.filterQname qname user.id := by
  rw [domain] at found
  split at found
  · cases found
  · next all =>
    rw [not_not, List.filterMap_length_eq_length] at all
    split at found
    · cases found
    · next one =>
      have first : d ∈ (names.filterMap (zoneOf domains user)).dedup := by
        rw [index] at found
        split at found
        · next there => exact List.mem_dedup.mpr (Except.ok.inj found ▸ List.mem_of_getElem? there)
        · cases found
      intro qname member
      obtain ⟨e, zone⟩ := Option.isSome_iff_exists.mp (all qname member)
      have also : e ∈ (names.filterMap (zoneOf domains user)).dedup :=
        List.mem_dedup.mpr (List.mem_filterMap.mpr ⟨qname, member, zone⟩)
      cases several : (names.filterMap (zoneOf domains user)).dedup with
      | nil =>
        rw [several] at first
        exact absurd first List.not_mem_nil
      | cons z others =>
        rw [several] at one first also
        obtain rfl : others = [] := by
          cases others with
          | nil => rfl
          | cons _ _ => simp at one
        rw [List.mem_singleton] at first also
        rw [first, ← also]
        exact mem_of_zoneOf zone

end Hosts

section Rows

variable {recordsAt : Text → List Text} {actions : List (Item × Option UpdateAction)}
  {rows : List (Item × List Text)}

private theorem mapM_of_rowsOf (done : rowsOf recordsAt actions = .ok rows) :
    ∃ results, rows = results.reduceOption ∧ List.Forall₂ (fun entry result =>
      ∃ records, getRecords (recordsAt entry.1.2) entry.2 = .ok records ∧
        result = records.map fun contents => (entry.1, contents)) actions results := by
  obtain ⟨results, mapped, same⟩ := bind_eq_ok_iff.mp done
  refine ⟨results, (Except.ok.inj same).symm, (mapM_eq_ok_iff.mp mapped).imp ?_⟩
  intro entry result one
  obtain ⟨records, got, given⟩ := bind_eq_ok_iff.mp one
  exact ⟨records, got, (Except.ok.inj given).symm⟩

theorem getRecords_of_rowsOf (done : rowsOf recordsAt actions = .ok rows) {item : Item}
    {action : Option UpdateAction} (member : (item, action) ∈ actions) :
    ∃ records, getRecords (recordsAt item.2) action = .ok records ∧
      ∀ contents, records = some contents → (item, contents) ∈ rows := by
  obtain ⟨results, rfl, mapped⟩ := mapM_of_rowsOf done
  obtain ⟨result, inside, records, got, rfl⟩ :=
    Library.Runs.exists_of_forall₂_left mapped member
  refine ⟨records, got, ?_⟩
  rintro contents rfl
  exact List.reduceOption_mem_iff.mpr inside

theorem action_of_rowsOf (done : rowsOf recordsAt actions = .ok rows) {row : Item × List Text}
    (member : row ∈ rows) : ∃ action, (row.1, action) ∈ actions ∧
      getRecords (recordsAt row.1.2) action = .ok (some row.2) := by
  obtain ⟨results, rfl, mapped⟩ := mapM_of_rowsOf done
  obtain ⟨entry, inside, records, got, same⟩ :=
    Library.Runs.exists_of_forall₂_left mapped.flip (List.reduceOption_mem_iff.mp member)
  obtain ⟨contents, rfl, rfl⟩ := Option.map_eq_some_iff.mp same.symm
  exact ⟨entry.2, inside, got⟩

theorem nodup_of_rowsOf (done : rowsOf recordsAt actions = .ok rows)
    (distinct : (actions.map Prod.fst).Nodup) : (rows.map Prod.fst).Nodup := by
  obtain ⟨results, rfl, mapped⟩ := mapM_of_rowsOf done
  have sub : (results.reduceOption.map Prod.fst).Sublist (actions.map Prod.fst) := by
    clear distinct done
    induction mapped with
    | nil => exact List.Sublist.slnil
    | @cons entry result actions results one _ ih =>
      obtain ⟨records, -, rfl⟩ := one
      cases records with
      | none =>
        rw [Option.map_none, List.reduceOption_cons_of_none]
        exact ih.cons _
      | some contents =>
        rw [Option.map_some, List.reduceOption_cons_of_some]
        exact ih.cons_cons _
  exact sub.nodup distinct

end Rows

section Actions

variable {unicode : Unicode} {domains : DomainTable unicode} {user : User} {request : Request}
  {addressed : Addressed}

/-- The action that the general parameters give for a family. -/
def actionOf (addressed : Addressed) : Family → UpdateAction
  | .ipv4 => addressed.actionA
  | .ipv6 => addressed.actionAAAA

/-- The parts of an interpretation. -/
structure Parts (domains : DomainTable unicode) (user : User) (request : Request)
    (addressed : Addressed) (names : List Text) (extra : Extra) : Prop where
  named : qnames domains user request = .ok names
  params : extraQnameParams unicode request.query = .ok extra
  found : domain domains user (names ++ extra.keys.map Prod.fst).dedup = .ok addressed.domain
  own : extraActions addressed.domain extra = .ok addressed.extraActions
  general (family : Family) : findAction request.query request.remoteAddr (keysOf family)
    (separatorOf family) = .ok (actionOf addressed family)
  subnames : addressed.subnames = names.map (subname · addressed.domain)

theorem parts_of_interpret (done : interpret domains user request = .ok addressed) :
    ∃ names extra, Parts domains user request addressed names extra := by
  obtain ⟨names, named, done⟩ := bind_eq_ok_iff.mp done
  obtain ⟨extra, params, done⟩ := bind_eq_ok_iff.mp done
  obtain ⟨d, found, done⟩ := bind_eq_ok_iff.mp done
  obtain ⟨actions, own, done⟩ := bind_eq_ok_iff.mp done
  obtain ⟨actionA, four, done⟩ := bind_eq_ok_iff.mp done
  obtain ⟨actionAAAA, six, done⟩ := bind_eq_ok_iff.mp done
  obtain rfl := Except.ok.inj done
  refine ⟨names, extra, named, params, found, own, fun family => ?_, rfl⟩
  cases family with
  | ipv4 => exact four
  | ipv6 => exact six

private theorem family_of_paramType {start type : Text}
    (known : Channels.paramType start = some type) :
    ∃ family, type = typeOf family := by
  rw [Channels.paramType] at known
  split at known
  · exact ⟨.ipv4, (Option.some.inj known).symm⟩
  · split at known
    · exact ⟨.ipv6, (Option.some.inj known).symm⟩
    · cases known

private theorem type_of_insert {type value : Text} {family : Family} (typed : type = typeOf family)
    {hosts : List Text} : ∀ {extra : Extra}, (∀ key ∈ extra, ∃ family, key.2 = typeOf family) →
      ∀ key ∈ hosts.foldl (fun extra host => extra.insert (host, type) value) extra,
        ∃ family, key.2 = typeOf family := by
  induction hosts with
  | nil => exact id
  | cons host hosts ih =>
    intro extra before
    apply ih
    intro key member
    rcases (AList.mem_insert extra).mp member with rfl | old
    · exact ⟨family, typed⟩
    · exact before key old

private theorem type_of_extraQnameParams {query : Query} {extra : Extra}
    (params : extraQnameParams unicode query = .ok extra) :
    ∀ key ∈ extra, ∃ family, key.2 = typeOf family := by
  have kept := @Library.Runs.foldlM_related Raised Extra (Text × Text)
    (fun before after => (∀ key ∈ before, ∃ family, key.2 = typeOf family) →
      ∀ key ∈ after, ∃ family, key.2 = typeOf family)
    (fun _ => id) (fun first second start => second (first start)) (addExtra unicode)
    (items query) (fun item _ before after step => ?_) ∅ extra params
  · exact kept fun key member => absurd member (AList.notMem_empty key)
  · intro start
    obtain ⟨parts, -, step⟩ := bind_eq_ok_iff.mp step
    cases parts with
    | none => exact Except.ok.inj step ▸ start
    | some parts =>
      obtain ⟨type?, known, step⟩ := bind_eq_ok_iff.mp step
      cases type? with
      | none => exact Except.ok.inj step ▸ start
      | some type =>
        have typed := attempt_eq_some_iff.mp known
        rw [prefixType] at typed
        split at typed
        · next found =>
          obtain rfl := Except.ok.inj typed
          obtain ⟨family, same⟩ := family_of_paramType found
          exact Except.ok.inj step ▸ type_of_insert same start
        · cases typed

theorem mem_extraActions {d : Domain} {extra : Extra}
    {actions : List (Item × Option UpdateAction)} (done : extraActions d extra = .ok actions)
    {item : Item} {action : Option UpdateAction} :
    (item, action) ∈ actions ↔ ∃ host value, extra.lookup (host, item.1) = some value ∧
      item.2 = subname host d ∧ getActionFromParam host value
        (if item.1 = "A".toList then '.' else ':') = .ok action := by
  have mapped := mapM_eq_ok_iff.mp done
  constructor
  · intro member
    obtain ⟨param, inside, one⟩ := Library.Runs.exists_of_forall₂_left mapped.flip member
    obtain ⟨given, read, same⟩ := bind_eq_ok_iff.mp one
    obtain ⟨rfl, rfl⟩ := Prod.mk.inj (Except.ok.inj same)
    exact ⟨param.1.1, param.2, AList.mem_lookup_iff.mpr inside, rfl, read⟩
  · rintro ⟨host, value, found, same, read⟩
    have inside := AList.mem_lookup_iff.mp found
    obtain ⟨entry, member, one⟩ := Library.Runs.exists_of_forall₂_left mapped inside
    obtain ⟨given, again, made⟩ := bind_eq_ok_iff.mp one
    obtain rfl := Except.ok.inj (again.symm.trans read)
    rw [← Except.ok.inj made, ← same] at member
    exact member

variable {names : List Text} {extra : Extra}
  (parts : Parts domains user request addressed names extra)
include parts

theorem Parts.zone {host : Text} (isHost : IsHost names extra host) :
    addressed.domain ∈ domains.filterQname host user.id := by
  apply zones_of_domain parts.found
  rw [List.mem_dedup, List.mem_append]
  exact isHost

private theorem Parts.subname_inj (narrow : Domains.Resolution.Narrow unicode) {host other : Text}
    (one : IsHost names extra host) (two : IsHost names extra other)
    (same : subname host addressed.domain = subname other addressed.domain) : host = other :=
  Channels.eq_of_subname narrow (parts.zone one) (parts.zone two) same

omit parts in
private theorem isHost_of_lookup {host type value : Text}
    (found : extra.lookup (host, type) = some value) :
    IsHost names extra host := by
  have member := AList.lookup_isSome.mp (Option.isSome_of_eq_some found)
  exact .inr (List.mem_map.mpr ⟨_, AList.mem_keys.mp member, rfl⟩)

private theorem Parts.mem_own (narrow : Domains.Resolution.Narrow unicode) {family : Family}
    {host : Text}
    (isHost : IsHost names extra host) {action : Option UpdateAction} :
    ((typeOf family, subname host addressed.domain), action) ∈ addressed.extraActions ↔
      ∃ value, extra.lookup (host, typeOf family) = some value ∧
        getActionFromParam host value (separatorOf family) = .ok action := by
  rw [mem_extraActions parts.own, separator_typeOf]
  constructor
  · rintro ⟨other, value, found, same, read⟩
    obtain rfl := parts.subname_inj narrow isHost (isHost_of_lookup found) same
    exact ⟨value, found, read⟩
  · rintro ⟨value, found, read⟩
    exact ⟨host, value, found, rfl, read⟩

theorem Parts.exists_own {host type value : Text} (found : extra.lookup (host, type) = some value) :
    ∃ action, getActionFromParam host value
      (if type = "A".toList then '.' else ':') = .ok action := by
  obtain ⟨entry, -, one⟩ := Library.Runs.exists_of_forall₂_left (mapM_eq_ok_iff.mp parts.own)
    (AList.mem_lookup_iff.mp found)
  obtain ⟨action, read, -⟩ := bind_eq_ok_iff.mp one
  exact ⟨action, read⟩

private theorem Parts.mem_general {item : Item} {action : Option UpdateAction} :
    (item, action) ∈ (addressed.subnames.flatMap fun subname =>
        [(("A".toList, subname), some addressed.actionA),
          (("AAAA".toList, subname), some addressed.actionAAAA)]) ↔
      ∃ family, ∃ host ∈ names, item = (typeOf family, subname host addressed.domain) ∧
        action = some (actionOf addressed family) := by
  rw [List.mem_flatMap, parts.subnames]
  constructor
  · rintro ⟨_, member, inside⟩
    obtain ⟨host, listed, rfl⟩ := List.mem_map.mp member
    rcases List.mem_pair.mp inside with same | same
    · obtain ⟨rfl, rfl⟩ := Prod.mk.inj same
      exact ⟨.ipv4, host, listed, rfl, rfl⟩
    · obtain ⟨rfl, rfl⟩ := Prod.mk.inj same
      exact ⟨.ipv6, host, listed, rfl, rfl⟩
  · rintro ⟨family, host, listed, rfl, rfl⟩
    refine ⟨_, List.mem_map_of_mem listed, ?_⟩
    cases family with
    | ipv4 => exact List.mem_cons_self
    | ipv6 => exact List.mem_cons_of_mem _ List.mem_cons_self

theorem Parts.mem_subnameActions (narrow : Domains.Resolution.Narrow unicode) {family : Family}
    {host : Text} (isHost : IsHost names extra host) {action : Option UpdateAction} :
    ((typeOf family, subname host addressed.domain), action) ∈ subnameActions addressed ↔
      match extra.lookup (host, typeOf family) with
      | some value => getActionFromParam host value (separatorOf family) = .ok action
      | none => host ∈ names ∧ action = some (actionOf addressed family) := by
  cases found : extra.lookup (host, typeOf family) with
  | some value =>
    obtain ⟨own, read⟩ := parts.exists_own found
    rw [separator_typeOf] at read
    have single (other : Option UpdateAction)
        (member : ((typeOf family, subname host addressed.domain), other) ∈
          addressed.extraActions) : other = own := by
      obtain ⟨again, same, readAgain⟩ := (parts.mem_own narrow isHost).mp member
      obtain rfl := Option.some.inj (found.symm.trans same)
      exact Except.ok.inj (readAgain.symm.trans read)
    rw [subnameActions,
      mem_lastValues_of_later ((parts.mem_own narrow isHost).mpr ⟨value, found, read⟩) single]
    dsimp only
    rw [read, Except.ok.injEq]
  | none =>
    have absent (other : Option UpdateAction) :
        ((typeOf family, subname host addressed.domain), other) ∉ addressed.extraActions := by
      intro member
      obtain ⟨value, same, -⟩ := (parts.mem_own narrow isHost).mp member
      rw [found] at same
      cases same
    have general {other : Option UpdateAction} := @Parts.mem_general _ _ _ _ _ _ _ parts
      (typeOf family, subname host addressed.domain) other
    have at_host {other : Option UpdateAction} : (∃ kind, ∃ name ∈ names,
        (typeOf family, subname host addressed.domain) =
          (typeOf kind, subname name addressed.domain) ∧
        other = some (actionOf addressed kind)) ↔
          host ∈ names ∧ other = some (actionOf addressed family) := by
      constructor
      · rintro ⟨kind, name, listed, same, rfl⟩
        obtain ⟨types, subnames⟩ := Prod.mk.inj same
        obtain rfl := parts.subname_inj narrow isHost (.inl listed) subnames
        exact ⟨listed, by rw [typeOf_injective types]⟩
      · rintro ⟨listed, rfl⟩
        exact ⟨family, host, listed, rfl, rfl⟩
    rw [subnameActions, mem_lastValues_of_earlier absent fun other member =>
      (at_host.mp (general.mp member)).2, general, at_host]

theorem Parts.host_of_subnameActions {item : Item} {action : Option UpdateAction}
    (member : (item, action) ∈ subnameActions addressed) : ∃ family host,
      IsHost names extra host ∧ item = (typeOf family, subname host addressed.domain) := by
  rcases List.mem_append.mp (mem_of_mem_lastValues member) with general | own
  · obtain ⟨family, host, listed, same, -⟩ := parts.mem_general.mp general
    exact ⟨family, host, .inl listed, same⟩
  · obtain ⟨host, value, found, same, -⟩ := (mem_extraActions parts.own).mp own
    have known := AList.lookup_isSome.mp (Option.isSome_of_eq_some found)
    obtain ⟨family, typed⟩ := type_of_extraQnameParams parts.params _ known
    exact ⟨family, host, isHost_of_lookup found, Prod.ext typed same⟩

end Actions

section Outcomes

variable {env : Env} {family : Family} {before after : Option RRset}

private theorem mem_canonical {dns : Dns} {type : Text} {records : Finset Text} {form : Text} :
    form ∈ canonical dns type records ↔ ∃ record ∈ records, dns.canonical record type
      = .ok form := by
  rw [canonical, Finset.mem_biUnion]
  refine exists_congr fun record => and_congr_right fun _ => ?_
  cases dns.canonical record type <;> simp [Except.toOption, eq_comm]

theorem forms_of_savedAs (reads : ReadsAddresses env.dns) {subname : Text} {contents : List Text}
    (saved : SavedAs env ((typeOf family, subname), contents) after) :
    (∀ content ∈ contents, ∃ form,
      env.dns.canonical (strip content) (typeOf family) = .ok form) ∧
    after = if contents = [] then none
      else some ⟨60, canonical env.dns (typeOf family) (contents.map strip).toFinset⟩ := by
  rw [SavedAs, Records.TextRows.KeptAs] at saved
  split at saved
  · next empty =>
    obtain rfl : contents = [] := empty
    exact ⟨fun content member => absurd member List.not_mem_nil, saved⟩
  · next something =>
    obtain ⟨forms, records, done, clean, rfl⟩ := saved
    have each (content : Text) (member : content ∈ contents) : ∃ form ∈ forms,
        env.dns.canonical (strip content) (typeOf family) = .ok form :=
      Library.Runs.exists_of_forall₂_left done member
    refine ⟨fun content member => ?_, ?_⟩
    · obtain ⟨form, -, read⟩ := each content member
      exact ⟨form, read⟩
    · rw [if_neg something]
      congr 2
      rw [Records.Canonical.forms_of_cleanRecords clean]
      ext form
      rw [Records.Canonical.mem_canonicalForms, mem_canonical]
      constructor
      · rintro ⟨record, member, again⟩
        obtain ⟨content, inside, read⟩ := Library.Runs.exists_of_forall₂_left done.flip member
        refine ⟨strip content, by simpa using ⟨content, inside, rfl⟩, ?_⟩
        obtain rfl := Except.ok.inj ((reads.stable family _ _ read).symm.trans again)
        exact read
      · rintro ⟨_, member, read⟩
        obtain ⟨content, inside, rfl⟩ := List.mem_map.mp (List.mem_toFinset.mp member)
        obtain ⟨other, listed, also⟩ := each content inside
        obtain rfl := Except.ok.inj (also.symm.trans read)
        exact ⟨other, listed, reads.stable family _ _ also⟩

/-- The records of a subname are those of both families, and each is an address of its own. -/
structure Pools (family : Family) (before : Option RRset) (pool : List Text) : Prop where
  reads (content : Text) (member : content ∈ pool) : ∃ address, ipAddress content = some address ∧
    (address.family = family → content ∈ before.elim ∅ RRset.records)
  all (content : Text) (member : content ∈ before.elim ∅ RRset.records) : content ∈ pool

variable {pool : List Text} (pools : Pools family before pool)
include pools

theorem movedTexts_of_replaceIpSubnet {subnet : IPNetwork} {contents : List Text}
    (done : replaceIpSubnet pool subnet = some contents) (same : subnet.family = family)
    (wide : ∀ content ∈ pool, ∀ address, ipAddress content = some address →
      address.family = family → ¬ Narrow subnet) :
    contents.toFinset = movedTexts family subnet before := by
  ext text
  rw [List.mem_toFinset, mem_replaceIpSubnet done, movedTexts, Finset.mem_biUnion]
  constructor
  · rintro ⟨content, member, one⟩
    obtain ⟨address, parsed, own⟩ := pools.reads content member
    by_cases family' : address.family = family
    · rw [rebase_of_same parsed (family'.trans same.symm)
        (wide content member address parsed family')] at one
      refine ⟨content, own family', ?_⟩
      rw [parsed]
      dsimp only
      rw [if_pos family', Finset.mem_singleton]
      exact (Option.some.inj (Option.some.inj one)).symm
    · rw [rebase_of_other parsed fun other => family' (other.trans same)] at one
      cases one
  · rintro ⟨content, member, inside⟩
    have pooled := pools.all content member
    obtain ⟨address, parsed, -⟩ := pools.reads content pooled
    rw [parsed] at inside
    dsimp only at inside
    split at inside
    · next family' =>
      rw [Finset.mem_singleton.mp inside]
      exact ⟨content, pooled, rebase_of_same parsed (family'.trans same.symm)
        (wide content pooled address parsed family')⟩
    · cases inside

end Outcomes

end DesecStack.DynDns.Update
