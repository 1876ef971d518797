/- module: DesecStack/DynDns/Apart
   layer: main results
   digest: A dynDNS update leaves at each host what the entries for a family ask for, and touches
     nothing else. -/

import DesecStack.DynDns.Update

set_option autoImplicit false
set_option relaxedAutoImplicit false

namespace DesecStack.DynDns.Apart

open Library.PyText
open Library.Raising
open Library.Runs (bind_eq_ok_iff)
open Changes.Models
open Changes.Compute (sortedOrders)
open Records.Serializer (Dns)
open Records.Save (Env)
open Views.Writes (Site Caller dynDnsQueryset envOf lookup_of_domain)
open Ipaddress
open Actions
open Families
open Subnet
open Channels (User Extra)
open Domains.Resolution (Domain DomainTable subname narrow_plain)
open Interpretation
open Saved
open Update

section Entries

variable {env : Env} {family : Family} {before after : Option RRset} {pool : List Text}
  {subname : Text}

/-- What an action on tidy entries leaves is what the entries ask for. -/
def Asked (env : Env) (family : Family) (before after : Option RRset) (entries : List Text) :
    Prop :=
  (∀ entry ∈ entries, Applies family entry) ∧ after = outcome env.dns family before entries

private theorem asked_empty (saved : SavedAs env ((typeOf family, subname), []) after) :
    Asked env family before after [[]] := by
  have removed : after = none := by
    rw [SavedAs, Records.TextRows.KeptAs, if_pos rfl] at saved
    exact saved
  have nothing : addresses family before [[]] = ∅ := rfl
  constructor
  · intro entry member
    exact .inr (.inl (List.mem_singleton.mp member))
  · rw [removed, outcome, if_neg (by decide), if_pos nothing]

private theorem strip_str_moved (subnet : IPNetwork) {address : Address}
    (same : address.family = subnet.family) :
    strip (moved subnet address).str = (moved subnet address).str := by
  cases subnet with
  | ipv4 network =>
    cases address with
    | ipv4 ip => exact strip_of_plain (plain_ipv4String _)
    | ipv6 ip scopeId => cases same
  | ipv6 network =>
    cases address with
    | ipv4 ip => cases same
    | ipv6 ip scopeId => exact strip_of_plain (plain_ipv6String _)

variable (reads : ReadsAddresses env.dns)
include reads

private theorem asked_subnet {entry : Text} {network : IPNetwork} {contents : List Text}
    (slash : '/' ∈ entry) (read : ipNetwork entry = .ok network) (tidy : Tidy entry)
    (separator : separatorOf family ∈ entry) (pools : Pools family before pool)
    (done : replaceIpSubnet pool network = some contents)
    (saved : SavedAs env ((typeOf family, subname), contents) after) :
    Asked env family before after [entry] := by
  have same : network.family = family := isOf_of_separator read slash separator tidy.undotted
  obtain ⟨canonical, stored⟩ := forms_of_savedAs reads saved
  -- a record in a narrow network would come out in IPv4 notation, which no AAAA record has
  have wide (content : Text) (member : content ∈ pool) (address : Address)
      (parsed : ipAddress content = some address) (own : address.family = family) :
      ¬ Narrow network := by
    intro narrow
    have six : family = .ipv6 := same.symm.trans narrow.1
    obtain ⟨result, one⟩ : ∃ result, rebase network content = some result := by
      obtain ⟨rebased, all, -⟩ := Option.map_eq_some_iff.mp done
      obtain ⟨result, -, one⟩ := Library.Runs.exists_of_forall₂_left
        (Library.Runs.mapM_eq_some_iff.mp all) member
      exact ⟨result, one⟩
    obtain ⟨ip, rfl⟩ := rebase_of_narrow parsed (own.trans six) narrow one
    have listed : ipv4String ip ∈ contents :=
      (mem_replaceIpSubnet done).mpr ⟨content, member, one⟩
    obtain ⟨form, kept⟩ := canonical _ listed
    rw [strip_of_plain (plain_ipv4String ip)] at kept
    obtain ⟨other, quad, isFamily⟩ := reads.reads family _ form (plain_ipv4String ip) kept
    have colon := separator_mem_of_isOf (isOf_of_ipAddress quad)
    rw [isFamily, six] at colon
    exact colon_not_mem_ipv4String ip colon
  have texts := movedTexts_of_replaceIpSubnet pools done same wide
  have trimmed : contents.map strip = contents := by
    conv_rhs => rw [← List.map_id contents]
    apply List.map_congr_left
    intro text member
    obtain ⟨content, pooled, one⟩ := (mem_replaceIpSubnet done).mp member
    obtain ⟨address, parsed, -⟩ := pools.reads content pooled
    by_cases own : address.family = family
    · have isMoved := rebase_of_same parsed (own.trans same.symm)
        (wide content pooled address parsed own)
      obtain rfl := Option.some.inj (Option.some.inj (isMoved.symm.trans one))
      exact strip_str_moved network (own.trans same.symm)
    · rw [rebase_of_other parsed fun other => own (other.trans same)] at one
      cases one
  have asks : addresses family before [entry] = contents.toFinset := by
    rw [texts, addresses, read]
    exact if_pos slash
  have kept : [entry] ≠ [preserve] := by
    intro same
    rw [List.cons.inj same |>.1] at slash
    exact absurd slash (by decide)
  constructor
  · intro other member
    rw [List.mem_singleton.mp member]
    exact .inl (isOf_iff.mpr ⟨network, read, same⟩)
  · rw [stored, outcome, if_neg kept, asks, trimmed]
    simp only [List.toFinset_eq_empty_iff]

private theorem asked_addresses {ips : List Text} (some : ips ≠ [])
    (tidy : ∀ entry ∈ ips.map strip, Tidy entry)
    (saved : SavedAs env ((typeOf family, subname), ips) after) :
    Asked env family before after (ips.map strip) := by
  obtain ⟨canonical, stored⟩ := forms_of_savedAs reads saved
  have parsed (entry : Text) (member : entry ∈ ips.map strip) :
      ∃ address, ipAddress entry = .some address ∧ address.family = family := by
    obtain ⟨ip, inside, rfl⟩ := List.mem_map.mp member
    obtain ⟨form, done⟩ := canonical ip inside
    exact reads.reads family _ form (tidy _ member).plain done
  have own (entry : Text) (member : entry ∈ ips.map strip) : isOf family entry = true := by
    obtain ⟨address, read, same⟩ := parsed entry member
    exact same ▸ isOf_of_ipAddress read
  have nonempty : ips.map strip ≠ [] := fun none => some (List.map_eq_nil_iff.mp none)
  have asks : addresses family before (ips.map strip) = (ips.map strip).toFinset := by
    match isEntries : ips.map strip with
    | [] => exact absurd isEntries nonempty
    | [entry] =>
      have member : entry ∈ ips.map strip := isEntries ▸ List.mem_singleton_self entry
      obtain ⟨address, read, -⟩ := parsed entry member
      obtain ⟨network, isNetwork, -⟩ := isOf_iff.mp (own entry member)
      have undivided : '/' ∉ entry := by
        rw [ipAddress] at read
        split at read
        · cases read
        · assumption
      rw [addresses, isNetwork]
      exact if_neg undivided
    | _ :: _ :: _ => rfl
  have kept : ips.map strip ≠ [preserve] := by
    intro same
    have applies := own preserve (same ▸ List.mem_singleton_self preserve)
    have separator := separator_mem_of_isOf applies
    exact absurd separator (by cases family <;> decide)
  constructor
  · exact fun entry member => .inl (own entry member)
  · rw [stored, outcome, if_neg kept, asks, if_neg some, if_neg]
    rw [List.toFinset_eq_empty_iff]
    exact nonempty

private theorem asked_of_action {entries : List Text} {action : UpdateAction}
    (means : Means entries action) (tidy : ∀ entry ∈ entries, Tidy entry)
    (separators : ∀ entry ∈ entries,
      separatorOf family ∈ entry ∨ entry = [] ∨ entry = preserve)
    (pools : Pools family before pool) {records : Option (List Text)}
    (got : getRecords pool (some action) = .ok records)
    (untouched : records = none → after = before)
    (saved : ∀ contents, records = some contents →
      SavedAs env ((typeOf family, subname), contents) after) :
    Asked env family before after entries := by
  cases means with
  | empty => exact asked_empty (saved [] (Except.ok.inj got).symm)
  | preserved =>
    constructor
    · intro entry member
      exact .inr (.inr (List.mem_singleton.mp member))
    · rw [outcome, if_pos rfl]
      exact untouched (Except.ok.inj got).symm
  | @subnet entry network slash read =>
    have own := List.mem_singleton_self entry
    have separator : separatorOf family ∈ entry := by
      rcases separators entry own with separator | empty | same
      · exact separator
      · rw [empty] at slash
        exact absurd slash List.not_mem_nil
      · rw [same] at slash
        exact absurd slash (by decide)
    rw [getRecords] at got
    split at got
    · next contents done =>
      exact asked_subnet reads slash read (tidy entry own) separator pools done
        (saved contents (Except.ok.inj got).symm)
    · cases got
  | addresses some => exact asked_addresses reads some tidy (saved _ (Except.ok.inj got).symm)

end Entries

section Sources

variable {unicode : Unicode} {request : Request} (tidy : TidyRequest unicode request)
  {family : Family} {entries : List Text} {entry : Text}

private theorem tidy_nil : Tidy [] :=
  ⟨fun _ inside => absurd inside List.not_mem_nil, fun dotted => List.not_mem_nil dotted.1⟩

include tidy

private theorem tidy_of_considered {value : Text} (given : AddressValue unicode request.query value)
    (member : entry ∈ considered value (separatorOf family)) :
    Tidy entry ∧ (separatorOf family ∈ entry ∨ entry = [] ∨ entry = preserve) := by
  obtain ⟨⟨piece, inside, rfl⟩, separator⟩ := mem_considered.mp member
  exact ⟨tidy.entries value given piece inside, separator⟩

private theorem tidy_of_source (source : Source family request.query request.remoteAddr entries)
    (member : entry ∈ entries) :
    Tidy entry ∧ (separatorOf family ∈ entry ∨ entry = [] ∨ entry = preserve) := by
  cases source with
  | parameter listed given => exact tidy_of_considered tidy (.inl ⟨family, _, listed, given⟩) member
  | client separator =>
    rw [List.mem_singleton.mp member]
    exact ⟨tidy.client, .inl separator⟩
  | nothing =>
    rw [List.mem_singleton.mp member]
    exact ⟨tidy_nil, .inr (.inl rfl)⟩

end Sources

section Records

variable {db : Database} {rrsets : RRsets} {site : Site} {caller : Caller} {name : Text}
  {subnames : List Text}

private theorem pools_of_subnameRecords (stores : StoresAddresses db)
    (found : Views.Writes.domain caller db name = .ok rrsets) (family : Family) {subname : Text}
    (wanted : subname ∈ subnames) : Pools family (value db name (typeOf family, subname))
      (subnameRecords site rrsets (dynDnsQueryset rrsets subnames) subname) := by
  have stored := lookup_of_domain found
  have at_type (kind : Family) {content : Text} :
      content ∈ (if (typeOf kind, subname) ∈ dynDnsQueryset rrsets subnames then
        (rrsets.lookup (typeOf kind, subname)).elim [] fun rrset =>
          site.contents.visit rrset.records else []) ↔
      content ∈ (value db name (typeOf kind, subname)).elim ∅ RRset.records := by
    have selected : (typeOf kind, subname) ∈ dynDnsQueryset rrsets subnames ↔
        (rrsets.lookup (typeOf kind, subname)).isSome := by
      rw [dynDnsQueryset, Finset.mem_filter, Finmap.mem_keys, Finmap.lookup_isSome]
      refine and_iff_left ⟨wanted, ?_⟩
      cases kind with
      | ipv4 => exact .inl rfl
      | ipv6 => exact .inr rfl
    rw [value, stored, Option.bind_some]
    cases here : rrsets.lookup (typeOf kind, subname) with
    | none => simp [selected, here]
    | some rrset => simp [selected, here, site.contents.mem_visit]
  have pooled {content : Text} :
      content ∈ subnameRecords site rrsets (dynDnsQueryset rrsets subnames) subname ↔
        ∃ kind, content ∈ (value db name (typeOf kind, subname)).elim ∅ RRset.records := by
    rw [subnameRecords, List.mem_flatMap]
    constructor
    · rintro ⟨type, listed, inside⟩
      rcases List.mem_pair.mp listed with rfl | rfl
      · exact ⟨.ipv4, (at_type .ipv4).mp inside⟩
      · exact ⟨.ipv6, (at_type .ipv6).mp inside⟩
    · rintro ⟨kind, inside⟩
      refine ⟨typeOf kind, ?_, (at_type kind).mpr inside⟩
      cases kind with
      | ipv4 => exact List.mem_cons_self
      | ipv6 => exact List.mem_cons_of_mem _ List.mem_cons_self
  constructor
  · intro content member
    obtain ⟨kind, inside⟩ := pooled.mp member
    cases here : value db name (typeOf kind, subname) with
    | none =>
      rw [here] at inside
      cases inside
    | some rrset =>
      rw [here] at inside
      obtain ⟨address, parsed, own⟩ := stores name kind subname rrset here content inside
      refine ⟨address, parsed, fun same => ?_⟩
      rw [← same, own, here]
      exact inside
  · intro content member
    exact pooled.mpr ⟨family, member⟩

end Records

section Requests

variable {site : Site} {caller : Caller} {db after : Database} {user : User} {request : Request}
  {domains : DomainTable site.unicode}

/-- An update that has been answered with `good`: its actions, the rows that they give, and what
saving the rows has left. -/
structure Answered (site : Site) (db : Database) (domains : DomainTable site.unicode)
    (user : User) (request : Request) (after : Database) (names : List Text) (extra : Extra)
    (d : Domain) where
  addressed : Addressed
  recordsAt : Text → List Text
  rows : List (Item × List Text)
  isDomain : addressed.domain = d
  parts : Parts domains user request addressed names extra
  pools (family : Family) (host : Text) (isHost : IsHost names extra host) :
    Pools family (value db d.name (typeOf family, subname host d)) (recordsAt (subname host d))
  made : rowsOf recordsAt (subnameActions addressed) = .ok rows
  saved (row : Item × List Text) (member : row ∈ rows) :
    SavedAs (envOf site d.name) row (value after d.name row.1)
  changed (name : Text) (item : Item) (differs : value after name item ≠ value db name item) :
    name = d.name ∧ ∃ row ∈ rows, row.1 = item

private theorem subname_mem_of_isHost {names : List Text} {extra : Extra} {addressed : Addressed}
    (parts : Parts domains user request addressed names extra) {host : Text}
    (isHost : IsHost names extra host) : subname host addressed.domain ∈
      addressed.subnames ++ addressed.extraActions.map fun entry => entry.1.2 := by
  rw [List.mem_append]
  rcases isHost with main | own
  · left
    rw [parts.subnames]
    exact List.mem_map_of_mem main
  · right
    obtain ⟨key, member, rfl⟩ := List.mem_map.mp own
    obtain ⟨value, found⟩ := Option.isSome_iff_exists.mp
      (AList.lookup_isSome.mpr (AList.mem_keys.mpr member))
    have given : extra.lookup (key.1, key.2) = some value := found
    obtain ⟨action, read⟩ := parts.exists_own given
    exact List.mem_map.mpr ⟨((key.2, subname key.1 addressed.domain), action),
      (mem_extraActions parts.own).mpr ⟨key.1, value, found, rfl, read⟩, rfl⟩

private theorem answered_of_get (narrow : Domains.Resolution.Narrow site.unicode)
    (stores : StoresAddresses db) (done : get site caller db domains user request = .ok after) :
    ∃ names extra d, Nonempty (Answered site db domains user request after names extra d) := by
  obtain ⟨addressed, interpreted, done⟩ := bind_eq_ok_iff.mp done
  obtain ⟨names, extra, parts⟩ := parts_of_interpret (ok_of_mapError interpreted)
  obtain ⟨rrsets, found, done⟩ := bind_eq_ok_iff.mp done
  obtain ⟨rows, made, done⟩ := bind_eq_ok_iff.mp done
  have found := ok_of_mapError found
  have made := ok_of_mapError made
  have regular : ∀ row ∈ rows, Regular row := by
    intro row member
    obtain ⟨action, inside, -⟩ := action_of_rowsOf made member
    obtain ⟨family, host, isHost, same⟩ := parts.host_of_subnameActions inside
    rw [Regular, same]
    constructor
    · cases family with
      | ipv4 => exact .inl rfl
      | ipv6 => exact .inr rfl
    · exact strip_subname narrow (parts.zone isHost)
  have distinct := nodup_of_rowsOf made (nodup_lastValues _)
  obtain ⟨saved, changed⟩ := saved_of_dynDnsSave regular distinct (ok_of_mapError done)
  refine ⟨names, extra, addressed.domain,
    ⟨addressed, _, rows, rfl, parts, ?_, made, saved, changed⟩⟩
  intro family host isHost
  exact pools_of_subnameRecords stores found family (subname_mem_of_isHost parts isHost)

variable {names : List Text} {extra : Extra} {d : Domain}
  (answered : Answered site db domains user request after names extra d)
include answered

private theorem Answered.host {row : Item × List Text} (member : row ∈ answered.rows) :
    ∃ family host, IsHost names extra host ∧ row.1 = (typeOf family, subname host d) := by
  obtain ⟨action, inside, -⟩ := action_of_rowsOf answered.made member
  have named := answered.parts.host_of_subnameActions inside
  rwa [answered.isDomain] at named

private theorem Answered.untouched {item : Item} (nothing : ∀ action,
      (item, action) ∈ subnameActions answered.addressed →
        getRecords (answered.recordsAt item.2) action = .ok none) :
    value after d.name item = value db d.name item := by
  by_contra differs
  obtain ⟨-, row, member, rfl⟩ := answered.changed _ _ differs
  obtain ⟨action, inside, got⟩ := action_of_rowsOf answered.made member
  have none := Except.ok.inj ((nothing action inside).symm.trans got)
  cases none

variable (narrow : Domains.Resolution.Narrow site.unicode)
include narrow

private theorem Answered.mem_actions {family : Family} {host : Text}
    (isHost : IsHost names extra host)
    {action : Option UpdateAction} :
    ((typeOf family, subname host d), action) ∈ subnameActions answered.addressed ↔
      match extra.lookup (host, typeOf family) with
      | some value => getActionFromParam host value (separatorOf family) = .ok action
      | none => host ∈ names ∧ action = some (actionOf answered.addressed family) := by
  have actions : ((typeOf family, subname host answered.addressed.domain), action) ∈
      subnameActions answered.addressed ↔ _ := answered.parts.mem_subnameActions narrow isHost
  rwa [answered.isDomain] at actions

private theorem Answered.single {family : Family} {host : Text} (isHost : IsHost names extra host)
    {one other : Option UpdateAction}
    (first : ((typeOf family, subname host d), one) ∈ subnameActions answered.addressed)
    (second : ((typeOf family, subname host d), other) ∈ subnameActions answered.addressed) :
    one = other := by
  rw [answered.mem_actions narrow isHost] at first second
  cases found : extra.lookup (host, typeOf family) with
  | some value =>
    rw [found] at first second
    exact Except.ok.inj (first.symm.trans second)
  | none =>
    rw [found] at first second
    exact first.2.trans second.2.symm

private theorem Answered.asked (reads : ReadsAddresses site.dns) {family : Family} {host : Text}
    (isHost : IsHost names extra host) {entries : List Text} {action : UpdateAction}
    (inside : ((typeOf family, subname host d), some action) ∈ subnameActions answered.addressed)
    (means : Means entries action)
    (fine : ∀ entry ∈ entries,
      Tidy entry ∧ (separatorOf family ∈ entry ∨ entry = [] ∨ entry = preserve)) :
    Asked (envOf site d.name) family (value db d.name (typeOf family, subname host d))
      (value after d.name (typeOf family, subname host d)) entries := by
  obtain ⟨records, got, listed⟩ := getRecords_of_rowsOf answered.made inside
  have reads : ReadsAddresses (envOf site d.name).dns := reads
  apply asked_of_action reads means (fun entry member => (fine entry member).1)
    (fun entry member => (fine entry member).2) (answered.pools family host isHost) got
  · rintro rfl
    apply answered.untouched
    intro other member
    rwa [answered.single narrow isHost member inside]
  · intro contents same
    exact answered.saved _ (listed contents same)

/-- Each RRset with addresses at a host is as the entries that govern it ask for. -/
theorem Answered.governed (reads : ReadsAddresses site.dns)
    (tidy : TidyRequest site.unicode request) (family : Family) {host : Text}
    (isHost : IsHost names extra host) :
    value after d.name (typeOf family, subname host d) =
      (governing family request names extra host).elim
        (value db d.name (typeOf family, subname host d))
        (outcome site.dns family (value db d.name (typeOf family, subname host d))) := by
  have actions (action : Option UpdateAction) :=
    @Answered.mem_actions _ _ _ _ _ _ _ _ _ answered narrow family host isHost action
  rw [governing]
  cases found : extra.lookup (host, typeOf family) with
  | some given =>
    rw [found] at actions
    have isValue : AddressValue site.unicode request.query given :=
      .inr ⟨extra, _, answered.parts.params, found⟩
    obtain ⟨action, read⟩ := answered.parts.exists_own found
    rw [separator_typeOf] at read
    cases action with
    | none =>
      have nothing := part_eq_nil (considered_of_getActionFromParam read)
      dsimp only
      rw [nothing]
      apply answered.untouched
      intro other member
      rw [(actions other).mp member] at read
      rw [Except.ok.inj read]
      rfl
    | some action =>
      obtain ⟨something, means⟩ := means_of_getActionFromParam read
      obtain ⟨applicable, same⟩ := answered.asked narrow reads isHost ((actions _).mpr read) means
        fun entry member => tidy_of_considered tidy isValue member
      rw [considered_eq_part applicable] at same something
      simp only [Option.filter_some, something, ne_eq, not_false_eq_true, decide_true, if_true]
      exact same
  | none =>
    rw [found] at actions
    dsimp only
    by_cases main : host ∈ names
    · obtain ⟨entries, means, source, same⟩ := general_of_findAction (answered.parts.general family)
      obtain ⟨applicable, left⟩ := answered.asked narrow reads isHost
        ((actions _).mpr ⟨main, rfl⟩) means fun entry member => tidy_of_source tidy source member
      rw [if_pos main, same applicable]
      exact left
    · rw [if_neg main]
      apply answered.untouched
      intro other member
      exact absurd ((actions other).mp member).1 main

end Requests

section Main

variable {site : Site} {caller : Caller} {db after : Database} {user : User} {request : Request}
  {domains : DomainTable site.unicode}

/-- A dynDNS update answered with `good` leaves each RRset with addresses at a host as the entries
that govern its family ask for, and changes nothing else. -/
theorem families_apart (narrow : Domains.Resolution.Narrow site.unicode)
    (reads : ReadsAddresses site.dns) (stores : StoresAddresses db)
    (tidy : TidyRequest site.unicode request)
    (done : get site caller db domains user request = .ok after) :
    ∃ names extra d, qnames domains user request = .ok names ∧
      extraQnameParams site.unicode request.query = .ok extra ∧
      domain domains user (names ++ extra.keys.map Prod.fst).dedup = .ok d ∧
      KeepsApart site.dns d names extra request db after := by
  obtain ⟨names, extra, d, ⟨answered⟩⟩ := answered_of_get narrow stores done
  refine ⟨names, extra, d, answered.parts.named, answered.parts.params,
    answered.isDomain ▸ answered.parts.found, fun family host isHost => ?_,
    fun name item differs => ?_⟩
  · exact answered.governed narrow reads tidy family isHost
  · obtain ⟨same, row, member, isItem⟩ := answered.changed name item differs
    obtain ⟨family, host, isHost, named⟩ := answered.host member
    exact ⟨same, family, host, isHost, isItem.symm.trans named⟩

end Main

section Sample

/-- dnspython, for addresses in canonical notation. -/
private def dns₃ : Dns where
  validationTypes := {"A".toList, "AAAA".toList}
  canonical content type :=
    if (ipAddress content).any fun address => typeOf address.family = type then .ok content
    else .error []
  wire _ content := content
  nameTooLong _ _ := false

private def site₃ : Site where
  unicode := .plain
  dns := dns₃
  settings := ⟨["ns1.example.".toList], 3600, "catalog.internal.".toList, false, id⟩
  orders := sortedOrders
  contents := sortedOrders.names
  minimumTtl _ := 60
  minimumTtlDefault := 60
  isLocallyRegistrable _ := false
  blockedSubnet _ := false
  isValidName _ := true
  registerLps := true
  parseZonefile _ _ := .ok []
  leaves _ := true

private def caller₃ : Caller where
  token := ⟨1, 1, none, none, false, false, false, false⟩
  policies := []
  mfaEnabled := false
  domains := {"a.test".toList}
  limitDomains := none

private def domains₃ : DomainTable Unicode.plain where
  rows := [⟨"a.test".toList, 1⟩]
  unique := by decide
  valid := by decide

private theorem address₃ : '@' ∈ "user@mail.test".toList := by decide

private def user₃ : User := ⟨1, "user@mail.test".toList, address₃⟩

private def db₃ : Database :=
  Finmap.insert "a.test".toList
    (Finmap.insert ("AAAA".toList, []) ⟨3600, {"2001:db8::1".toList}⟩
      (Finmap.insert ("A".toList, []) ⟨3600, {"192.0.2.1".toList}⟩ ∅)) ∅

/-- New IPv4 addresses, and a new prefix for the IPv6 addresses. -/
private def request₃ : Request where
  query := [("hostname".toList, "a.test".toList), ("myip".toList, "192.0.2.2, 192.0.2.3".toList),
    ("myipv6".toList, "2001:db8:0:1::/64".toList)]
  authorization := []
  remoteAddr := "192.0.2.9".toList

private theorem canonical₃ {family : Family} {text form : Text}
    (done : dns₃.canonical text (typeOf family) = .ok form) :
    form = text ∧ ∃ address, ipAddress text = some address ∧ address.family = family := by
  simp only [dns₃] at done
  split at done
  · next read =>
    obtain ⟨address, parsed, same⟩ := Option.any_eq_true _ _ |>.mp read
    exact ⟨(Except.ok.inj done).symm, address, parsed, typeOf_injective (of_decide_eq_true same)⟩
  · cases done

private theorem reads₃ : ReadsAddresses dns₃ where
  reads _ _ _ _ done := (canonical₃ done).2
  forms _ _ _ done := (canonical₃ done).1 ▸ (canonical₃ done).2
  stable _ _ _ done := (canonical₃ done).1 ▸ done

private theorem stores₃ : StoresAddresses db₃ := by
  intro name family subname rrset found content member
  rw [value, db₃] at found
  have here : name = "a.test".toList := by
    by_contra other
    rw [Finmap.lookup_insert_of_ne _ other] at found
    cases found
  rw [here, Finmap.lookup_insert, Option.bind_some] at found
  cases family with
  | ipv4 =>
    rw [Finmap.lookup_insert_of_ne _ (by simp [typeOf])] at found
    by_cases apex : subname = []
    · rw [apex] at found
      obtain rfl := Option.some.inj (found.symm.trans (Finmap.lookup_insert _))
      rw [Finset.mem_singleton.mp member]
      exact ⟨_, rfl, rfl⟩
    · rw [Finmap.lookup_insert_of_ne _ (by simp [apex])] at found
      cases found
  | ipv6 =>
    by_cases apex : subname = []
    · rw [apex] at found
      obtain rfl := Option.some.inj (found.symm.trans (Finmap.lookup_insert _))
      rw [Finset.mem_singleton.mp member]
      exact ⟨_, rfl, rfl⟩
    · rw [Finmap.lookup_insert_of_ne _ (by simp [apex]),
        Finmap.lookup_insert_of_ne _ (by simp [typeOf])] at found
      cases found

private theorem tidy₃ : TidyRequest Unicode.plain request₃ where
  entries value given := by
    have each : ∀ value ∈ request₃.query.map Prod.snd, ∀ piece ∈ split ',' value,
        Tidy (strip piece) := by
      decide +kernel
    apply each
    rcases given with ⟨family, key, -, found⟩ | ⟨extra, key, params, found⟩
    · obtain ⟨before, after, isQuery, -⟩ := List.lookup_eq_some_iff.mp found
      have member : (key, value) ∈ request₃.query.reverse := by simp [isQuery]
      exact List.mem_map_of_mem (List.mem_reverse.mp member)
    · have none : extraQnameParams Unicode.plain request₃.query = .ok ∅ := rfl
      obtain rfl := Except.ok.inj (none.symm.trans params)
      cases found
  client := by decide +kernel

theorem families_apart_prefix : ∃ after, get site₃ caller₃ db₃ domains₃ user₃ request₃ = .ok after ∧
    ∃ names extra d, qnames domains₃ user₃ request₃ = .ok names ∧
      extraQnameParams Unicode.plain request₃.query = .ok extra ∧
      domain domains₃ user₃ (names ++ extra.keys.map Prod.fst).dedup = .ok d ∧
      KeepsApart dns₃ d names extra request₃ db₃ after := by
  have good : (get site₃ caller₃ db₃ domains₃ user₃ request₃).isOk = true := by decide +kernel
  obtain ⟨after, done⟩ := exists_of_isOk good
  exact ⟨after, done, families_apart narrow_plain reads₃ stores₃ tidy₃ done⟩

end Sample

end DesecStack.DynDns.Apart
