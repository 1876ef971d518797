/- module: DesecStack/Changes/Sync
   source: api/desecapi/management/commands/sync-to-pdns.py,
     api/desecapi/management/commands/sync-from-pdns.py, api/desecapi/pdns.py
   digest: The full synchronisation of a domain with its zone, in both directions. -/

import DesecStack.Changes.Execution

set_option autoImplicit false
set_option relaxedAutoImplicit false

namespace DesecStack.Changes.Sync

open Library.PyText (Text Dict Unicode)
open Library.SetOrder (VisitOrder mem_visit_iff)
open Library.Journal (shown)
open Names.Validators (validateDomainName ne_nil)
open Models Tracker Pdns Compute Execution

/-- The order in which a zone is listed. -/
abbrev Listing := VisitOrder (Text × Text)

/-- `rrset["name"][: -(len(domain.name) + 2)]` -/
def subnameOf (name owner : Text) : Text := owner.take (owner.length - (name.length + 2))

/-- The type and subname that an RRset of the zone is taken for. -/
def itemOf (name : Text) (key : Text × Text) : Item := (key.2, subnameOf name key.1)

/-- The RRsets of a zone, as they are listed. -/
def datasOf (listing : Listing) (name : Text) (zone : Zone) : List (Item × RRset) :=
  (listing.visit zone.keys).filterMap fun key =>
    (zone.lookup key).map fun rrset => (itemOf name key, rrset)

/-- `get_rrset_datas`; `none` is an error response. -/
def getRrsetDatas (listing : Listing) (servers : Servers) (name : Text) :
    Option (List (Item × RRset)) := do
  let id ← pdnsId name
  let zone ← servers.lord.lookup id
  pure (datasOf listing name zone)

section ToPdns

variable (settings : Settings) (accepts : Accepts) (orders : Orders) (listing : Listing)

/-- A request that creates a zone. A server answers 409 where the zone is there already. -/
inductive Response where
  | created (servers : Servers)
  | conflict
  | failed

def respond (request : Request) (servers : Servers) : Response :=
  if accepts servers request then
    match handle settings servers request with
    | some servers => .created servers
    | none => .conflict
  else .failed

/-- `CreateDomain.pdns_do`, where a conflict is passed over: the servers, and whether everything
was created. `none` is any other exception. -/
def createIfMissing (name : Text) (servers : Servers) : Option (Servers × Bool) :=
  match respond settings accepts (.createZoneLord name) servers with
  | .failed => none
  | .conflict => some (servers, false)
  | .created servers =>
    match respond settings accepts (.createZoneMaster name) servers with
    | .failed => none
    | .conflict => some (servers, false)
    | .created servers =>
      (updateCatalog settings accepts name false servers).map fun servers => (servers, true)

/-- `_sync_domain` of `sync-to-pdns`; `none` is an exception. -/
def syncToPdns (db : Database) (name : Text) (servers : Servers) : Option (Servers × Bool) := do
  let (servers, created) ← createIfMissing settings accepts name servers
  let modifications := itemsOf db name
  let datas ← getRrsetDatas listing servers name
  let deletions := ((datas.map Prod.fst).toFinset \ modifications).erase (soa, [])
  let servers ← pdnsDo settings accepts orders db servers
    (.createUpdateDeleteRRSets name ⟨∅, modifications, deletions⟩)
  let servers ← transfer settings accepts servers name
  pure (servers, created)

end ToPdns

section FromPdns

/-- What the database demands of RRset rows: unique types and subnames, the constraint
`cname_exclusivity`, and values that fit into the columns. -/
def Storable (rows : List (Item × RRset)) : Prop :=
  (rows.map Prod.fst).Nodup ∧
    (∀ row ∈ rows, ∀ other ∈ rows, other.1.2 = row.1.2 → (other.1.1 = cname ↔ row.1.1 = cname)) ∧
    ∀ row ∈ rows, row.1.1.length ≤ typeMaxLength ∧ row.1.2.length ≤ subnameMaxLength ∧
      row.2.ttl ≤ ttlMax

instance (rows : List (Item × RRset)) : Decidable (Storable rows) :=
  inferInstanceAs (Decidable (_ ∧ _ ∧ _))

/-- `bulk_create` for a domain without RRsets. -/
def bulkCreate (rows : List (Item × RRset)) : Option RRsets :=
  if Storable rows then some (rows.foldr (fun row rrsets => rrsets.insert row.1 row.2) ∅) else none

def manual (datas : List (Item × RRset)) : List (Item × RRset) :=
  datas.filter fun data => data.1.1 ∉ typesAutomatic

/-- The RRsets that `sync-from-pdns` creates; `none` is an exception. -/
def importRows (listing : Listing) (servers : Servers) (name : Text) : Option RRsets := do
  let datas ← getRrsetDatas listing servers name
  bulkCreate (manual datas)

/-- `_sync_domain` of `sync-from-pdns`. An exception rolls the transaction back. -/
def syncFromPdns (listing : Listing) (db : Database) (name : Text) (servers : Servers) :
    Database :=
  (importRows listing servers name).elim db fun rrsets => db.insert name rrsets

end FromPdns

section Names

private theorem subnameOf_constructName {name : Text} (nonempty : name ≠ []) (subname : Text) :
    subnameOf name (constructName subname name) = subname := by
  by_cases empty : subname = []
  · have whole : constructName subname name = name ++ ['.'] := by
      simp [constructName, Library.PyText.join, empty, nonempty]
    have short : (name ++ ['.']).length - (name.length + 2) = 0 := by
      rw [List.length_append, List.length_singleton]
      omega
    rw [subnameOf, whole, short, empty]
    rfl
  · have whole : constructName subname name = subname ++ ('.' :: name ++ ['.']) := by
      simp [constructName, Library.PyText.join, empty, nonempty, List.intercalate_cons_cons]
    have front : (subname ++ ('.' :: name ++ ['.'])).length - (name.length + 2) =
        subname.length := by
      simp only [List.length_append, List.length_cons, List.length_nil]
      omega
    rw [subnameOf, whole, front, List.take_left']
    rfl

private theorem itemOf_zoneKey {name : Text} (nonempty : name ≠ []) (item : Item) :
    itemOf name (zoneKey name item) = item :=
  Prod.ext rfl (subnameOf_constructName nonempty item.2)

/-- All names in the zone end in the name of the zone. -/
def Qualified (name : Text) (zone : Zone) : Prop :=
  ∀ key rrset, zone.lookup key = some rrset → ∃ item, zoneKey name item = key

variable {unicode : Unicode} {listing : Listing} {servers : Servers} {name : Text} {zone : Zone}

private theorem zone_of_getRrsetDatas {datas : List (Item × RRset)}
    (valid : validateDomainName unicode name = true)
    (read : getRrsetDatas listing servers name = some datas) :
    ∃ zone, servers.lord.lookup (zoneId name) = some zone ∧
      datas = datasOf listing name zone := by
  simp only [getRrsetDatas, Option.bind_eq_bind, Option.bind_eq_some_iff, Option.pure_def,
    Option.some.injEq] at read
  obtain ⟨id, path, zone, there, rfl⟩ := read
  obtain rfl := pdnsId_eq valid path
  exact ⟨zone, there, rfl⟩

private theorem mem_datas_iff (nonempty : name ≠ []) (qualified : Qualified name zone) {item : Item}
    {rrset : RRset} :
    (item, rrset) ∈ datasOf listing name zone ↔
      zone.lookup (zoneKey name item) = some rrset := by
  simp only [datasOf, List.mem_filterMap, mem_visit_iff, Option.map_eq_some_iff]
  constructor
  · rintro ⟨key, _, read, found, same⟩
    obtain ⟨other, rfl⟩ := qualified key read found
    rw [itemOf_zoneKey nonempty] at same
    obtain ⟨rfl, rfl⟩ := Prod.mk.inj same
    exact found
  · intro found
    refine ⟨zoneKey name item, ?_, rrset, found, ?_⟩
    · rw [Finmap.mem_keys, Finmap.mem_iff]
      exact ⟨rrset, found⟩
    · rw [itemOf_zoneKey nonempty]

end Names

section Repaired

variable {unicode : Unicode} {settings : Settings} {accepts : Accepts} {orders : Orders}
  {listing : Listing} {db : Database} {name : Text} {servers servers' : Servers}

private theorem respond_created_iff {request : Request} :
    respond settings accepts request servers = .created servers' ↔
      send settings accepts request servers = some servers' := by
  rw [respond, send]
  split
  · split <;> simp_all
  · simp

/-- The zone before the RRsets are sent: the one that is there, or a new one. -/
def priorZone (settings : Settings) (servers : Servers) (name : Text) : Zone :=
  (servers.lord.lookup (zoneId name)).getD (newZone settings name)

private theorem lord_of_createIfMissing {created : Bool}
    (done : createIfMissing settings accepts name servers = some (servers', created)) :
    servers'.lord.lookup (zoneId name) = some (priorZone settings servers name) := by
  rw [createIfMissing] at done
  cases first : respond settings accepts (.createZoneLord name) servers with
  | failed =>
    rw [first] at done
    cases done
  | conflict =>
    rw [first] at done
    cases done
    rw [respond] at first
    split at first
    · split at first
      · cases first
      · next refused =>
        simp only [handle, ite_eq_right_iff, reduceCtorEq, imp_false] at refused
        obtain ⟨zone, there⟩ := Option.ne_none_iff_exists'.mp refused
        have there : servers.lord.lookup (zoneId name) = some zone := there
        rw [priorZone, there]
        rfl
    · cases first
  | created lord =>
    simp only [first] at done
    have handled := handle_of_send (respond_created_iff.mp first)
    simp only [handle, Option.ite_none_right_eq_some, Option.some.injEq] at handled
    obtain ⟨absent, shape⟩ := handled
    have absent : servers.lord.lookup (zoneId name) = none := absent
    have fresh : lord.lord.lookup (zoneId name) = some (priorZone settings servers name) := by
      rw [← shape, priorZone, absent]
      exact Finmap.lookup_insert _
    cases second : respond settings accepts (.createZoneMaster name) lord with
    | created master =>
      simp only [second, Option.map_eq_some_iff, Prod.mk.injEq] at done
      obtain ⟨last, sent, rfl, _⟩ := done
      rw [lord_of_updateCatalog sent, lord_of_createMaster (respond_created_iff.mp second)]
      exact fresh
    | conflict =>
      simp only [second, Option.some.injEq, Prod.mk.injEq] at done
      rw [← done.1]
      exact fresh
    | failed =>
      simp only [second] at done
      cases done

private theorem lord_of_transfer (sent : transfer settings accepts servers name = some servers') :
    servers'.lord = servers.lord := by
  simp only [transfer, Option.bind_eq_bind, Option.bind_eq_some_iff] at sent
  obtain ⟨id, _, sent⟩ := sent
  have handled := handle_of_send sent
  simp only [handle, Option.ite_none_left_eq_some, Option.map_eq_some_iff] at handled
  obtain ⟨_, zone, _, rfl⟩ := handled
  rfl

/-- The zone that a synchronisation ends with: what the database shows, and the SOA record. -/
structure Repaired (db : Database) (name : Text) (prior zone : Zone) : Prop where
  regular : ∀ item, item ≠ (soa, []) →
    zone.lookup (zoneKey name item) = shown RRset.blank (value db name item)
  start : zone.lookup (zoneKey name (soa, [])) = prior.lookup (zoneKey name (soa, []))
  qualified : Qualified name zone

private theorem repaired_of_syncToPdns {created : Bool}
    (valid : validateDomainName unicode name = true)
    (qualified : Qualified name (priorZone settings servers name))
    (unowned : value db name (soa, []) = none)
    (done : syncToPdns settings accepts orders listing db name servers = some (servers', created)) :
    ∃ zone, servers'.lord.lookup (zoneId name) = some zone ∧
      Repaired db name (priorZone settings servers name) zone := by
  have nonempty := ne_nil unicode valid
  simp only [syncToPdns, Option.bind_eq_bind, Option.bind_eq_some_iff, Option.pure_def,
    Option.some.injEq, Prod.exists, Prod.mk.injEq] at done
  obtain ⟨first, _, made, datas, read, second, sent, last, moved, rfl, _⟩ := done
  have prior := lord_of_createIfMissing made
  obtain ⟨zone, there, rfl⟩ := zone_of_getRrsetDatas valid read
  obtain rfl : priorZone settings servers name = zone := Option.some.inj (prior.symm.trans there)
  obtain ⟨data, requested, patched, _⟩ := pdnsDo_createUpdateDeleteRRSets valid sent
  have replays := replays_data nonempty requested
  refine ⟨_, by rw [lord_of_transfer moved, patched, prior]; rfl, ?_⟩
  have listed : ∀ item,
      item ∈ ((datasOf listing name (priorZone settings servers name)).map Prod.fst).toFinset ↔
        ((priorZone settings servers name).lookup (zoneKey name item)).isSome := by
    intro item
    simp only [List.mem_toFinset, List.mem_map, Prod.exists, exists_and_right, exists_eq_right,
      mem_datas_iff nonempty qualified, Option.isSome_iff_exists]
  constructor
  · intro item regular
    rw [replays.regular]
    by_cases owned : item ∈ itemsOf db name
    · simp [owned]
    · have gone : value db name item = none := by
        rw [mem_itemsOf, Option.not_isSome_iff_eq_none] at owned
        exact owned
      by_cases extra : ((priorZone settings servers name).lookup (zoneKey name item)).isSome
      · have deleted := (listed item).mpr extra
        rw [if_pos (by simp [regular, owned, deleted]), gone]
        rfl
      · have absent := Option.not_isSome_iff_eq_none.mp extra
        rw [absent, gone]
        simp [owned, shown]
  · rw [replays.regular]
    have unlisted : (soa, []) ∉ itemsOf db name := by
      rw [mem_itemsOf, unowned]
      simp
    simp [unlisted]
  · intro key rrset found
    by_contra foreign
    rw [replays.foreign _ key fun item same => foreign ⟨item, same⟩] at found
    exact foreign (qualified key rrset found)

/-- A new zone has names of its own only. -/
theorem qualified_priorZone (valid : validateDomainName unicode name = true)
    (qualified : ∀ zone, servers.lord.lookup (zoneId name) = some zone → Qualified name zone) :
    Qualified name (priorZone settings servers name) := by
  cases there : servers.lord.lookup (zoneId name) with
  | some zone =>
    rw [priorZone, there]
    exact qualified zone there
  | none =>
    rw [priorZone, there]
    intro key rrset found
    have apex : constructName [] name = absoluteName name := by
      rw [absoluteName_eq valid]
      simp [constructName, Library.PyText.join, ne_nil unicode valid]
    by_contra foreign
    have other : ∀ type, key ≠ (absoluteName name, type) := by
      rintro type rfl
      exact foreign ⟨(type, []), by rw [zoneKey, apex]⟩
    rw [Option.getD_none, newZone, place_of_ne (other ns), place_of_ne (other soa),
      Finmap.lookup_empty] at found
    cases found

end Repaired

section Imported

variable {unicode : Unicode} {listing : Listing} {db : Database} {name : Text}
  {servers : Servers}

private theorem lookup_bulk : ∀ {rows : List (Item × RRset)}, (rows.map Prod.fst).Nodup →
    ∀ {item : Item} {rrset : RRset},
      (rows.foldr (fun row rrsets => rrsets.insert row.1 row.2) (∅ : RRsets)).lookup item =
        some rrset ↔ (item, rrset) ∈ rows := by
  intro rows
  induction rows with
  | nil => simp
  | cons row rows ih =>
    intro nodup item rrset
    obtain ⟨absent, rest⟩ := List.nodup_cons.mp nodup
    rw [List.foldr_cons, List.mem_cons]
    by_cases same : item = row.1
    · subst same
      have unique : (row.1, rrset) ∉ rows := fun member =>
        absent (List.mem_map.mpr ⟨_, member, rfl⟩)
      rw [Finmap.lookup_insert, or_iff_left unique, Option.some.injEq]
      exact ⟨fun equal => equal ▸ rfl, fun equal => congrArg Prod.snd equal.symm⟩
    · have other : (item, rrset) ≠ row := fun equal => same (congrArg Prod.fst equal)
      rw [Finmap.lookup_insert_of_ne _ same, ih rest]
      simp [other]

private theorem shown_eq_some {value : Option RRset} {rrset : RRset}
    (found : shown RRset.blank value = some rrset) : value = some rrset :=
  (Option.filter_eq_some_iff.mp found).1

private theorem shown_shown (value : Option RRset) :
    shown RRset.blank (shown RRset.blank value) = shown RRset.blank value := by
  simp [shown, Option.filter_filter]

private theorem mem_imported_iff {prior zone : Zone} (nonempty : name ≠ [])
    (repaired : Repaired db name prior zone) {item : Item} {rrset : RRset} :
    (item, rrset) ∈ manual (datasOf listing name zone) ↔
      item.1 ∉ typesAutomatic ∧ shown RRset.blank (value db name item) = some rrset := by
  rw [manual, List.mem_filter, mem_datas_iff nonempty repaired.qualified, decide_eq_true_eq,
    and_comm]
  refine and_congr_right fun unmanaged => ?_
  rw [repaired.regular item]
  rintro rfl
  exact unmanaged (show soa ∈ typesAutomatic by decide)

/-- An import right after a repair changes nothing that shows and is not automatic. -/
theorem shown_syncFromPdns {prior zone : Zone} (valid : validateDomainName unicode name = true)
    (there : servers.lord.lookup (zoneId name) = some zone)
    (repaired : Repaired db name prior zone) {item : Item} (unmanaged : item.1 ∉ typesAutomatic) :
    shown RRset.blank (value (syncFromPdns listing db name servers) name item) =
      shown RRset.blank (value db name item) := by
  rw [syncFromPdns]
  cases rows : importRows listing servers name with
  | none => rfl
  | some rrsets =>
    simp only [importRows, Option.bind_eq_bind, Option.bind_eq_some_iff, bulkCreate,
      Option.ite_none_right_eq_some, Option.some.injEq] at rows
    obtain ⟨datas, read, storable, rfl⟩ := rows
    obtain ⟨other, found, rfl⟩ := zone_of_getRrsetDatas valid read
    obtain rfl : zone = other := Option.some.inj (there.symm.trans found)
    rw [Option.elim_some, value, Finmap.lookup_insert, Option.bind_some]
    refine Eq.trans (congrArg _ ?_) (shown_shown (value db name item))
    apply Option.ext
    intro rrset
    rw [lookup_bulk storable.1, mem_imported_iff (ne_nil unicode valid) repaired]
    exact and_iff_right unmanaged

/-- What the database demands of the RRsets of a domain. -/
def Stored (db : Database) (name : Text) : Prop :=
  ∀ item rrset, value db name item = some rrset →
    (∀ other rrset', value db name other = some rrset' → other.2 = item.2 →
      (other.1 = cname ↔ item.1 = cname)) ∧
    item.1.length ≤ typeMaxLength ∧ item.2.length ≤ subnameMaxLength ∧ rrset.ttl ≤ ttlMax

/-- The import goes through, as the database has stored these rows before. -/
theorem importRows_isSome {prior zone : Zone} (valid : validateDomainName unicode name = true)
    (path : (pdnsId name).isSome) (there : servers.lord.lookup (zoneId name) = some zone)
    (repaired : Repaired db name prior zone) (stored : Stored db name) :
    (importRows listing servers name).isSome := by
  obtain ⟨id, path⟩ := Option.isSome_iff_exists.mp path
  have nonempty := ne_nil unicode valid
  have same := pdnsId_eq valid path
  have read : getRrsetDatas listing servers name = some (datasOf listing name zone) := by
    simp [getRrsetDatas, path, same, there]
  have values : ∀ row ∈ manual (datasOf listing name zone), value db name row.1 = some row.2 :=
    fun row member => shown_eq_some ((mem_imported_iff nonempty repaired).mp member).2
  have storable : Storable (manual (datasOf listing name zone)) := by
    refine ⟨?_, ?_, ?_⟩
    · refine List.Nodup.sublist (List.Sublist.map _ List.filter_sublist) ?_
      rw [datasOf, List.map_filterMap]
      have items : ∀ key ∈ listing.visit zone.keys,
          ((zone.lookup key).map fun rrset => (itemOf name key, rrset)).map Prod.fst =
            some (itemOf name key) := by
        intro key member
        rw [mem_visit_iff, Finmap.mem_keys, Finmap.mem_iff] at member
        obtain ⟨rrset, found⟩ := member
        rw [found]
        rfl
      rw [List.filterMap_congr items, List.filterMap_eq_map']
      refine List.Nodup.map_on ?_ (listing.nodup _)
      intro one here other there' equal
      rw [mem_visit_iff, Finmap.mem_keys, Finmap.mem_iff] at here there'
      obtain ⟨_, here⟩ := here
      obtain ⟨_, there'⟩ := there'
      obtain ⟨item, rfl⟩ := repaired.qualified one _ here
      obtain ⟨item', rfl⟩ := repaired.qualified other _ there'
      rw [itemOf_zoneKey nonempty, itemOf_zoneKey nonempty] at equal
      rw [equal]
    · intro row member other there' subname
      exact (stored row.1 row.2 (values row member)).1 other.1 other.2 (values other there') subname
    · exact fun row member => (stored row.1 row.2 (values row member)).2
  rw [importRows, read, Option.bind_eq_bind, Option.bind_some, bulkCreate, if_pos storable]
  rfl

end Imported

section Synchronised

variable {unicode : Unicode} {settings : Settings} {accepts : Accepts} {orders : Orders}
  {listing : Listing} {db : Database} {name : Text} {servers servers' : Servers}

/-- A synchronisation that succeeds leaves in the zone what the database shows, and the SOA
record; the way back leaves in the database what it shows, up to automatic types. -/
theorem repairs_and_roundtrips {created : Bool} (valid : validateDomainName unicode name = true)
    (qualified : ∀ zone, servers.lord.lookup (zoneId name) = some zone → Qualified name zone)
    (unowned : value db name (soa, []) = none)
    (done : syncToPdns settings accepts orders listing db name servers = some (servers', created)) :
    (∃ zone, servers'.lord.lookup (zoneId name) = some zone ∧
      Repaired db name (priorZone settings servers name) zone) ∧
    ∀ again : Listing,
      (Stored db name → (importRows again servers' name).isSome) ∧
      ∀ item, item.1 ∉ typesAutomatic →
        shown RRset.blank (value (syncFromPdns again db name servers') name item) =
          shown RRset.blank (value db name item) := by
  obtain ⟨zone, there, repaired⟩ := repaired_of_syncToPdns valid
    (qualified_priorZone valid qualified) unowned done
  have path : (pdnsId name).isSome := by
    simp only [syncToPdns, Option.bind_eq_bind, Option.bind_eq_some_iff, Prod.exists] at done
    obtain ⟨_, _, _, _, read, _⟩ := done
    simp only [getRrsetDatas, Option.bind_eq_bind, Option.bind_eq_some_iff] at read
    obtain ⟨id, path, _⟩ := read
    rw [path]
    rfl
  exact ⟨⟨zone, there, repaired⟩, fun again =>
    ⟨importRows_isSome valid path there repaired, fun _ =>
      shown_syncFromPdns valid there repaired⟩⟩

private theorem syncToPdns_isSome {id : Text} (valid : validateDomainName unicode name = true)
    (path : pdnsId name = some id) (accepting : ∀ servers request, accepts servers request = true)
    (lord : (servers.lord.lookup (zoneId name)).isSome)
    (master : (servers.master.lookup (zoneId name)).isSome) :
    (syncToPdns settings accepts orders listing db name servers).isSome := by
  obtain rfl := pdnsId_eq valid path
  obtain ⟨zone, there⟩ := Option.isSome_iff_exists.mp lord
  obtain ⟨replica, copied⟩ := Option.isSome_iff_exists.mp master
  have conflict : createIfMissing settings accepts name servers = some (servers, false) := by
    have present : servers.lord.lookup (zoneNameToId (absoluteName name)) = some zone := there
    simp [createIfMissing, respond, accepting, handle, present]
  have read : getRrsetDatas listing servers name = some (datasOf listing name zone) := by
    simp [getRrsetDatas, path, there]
  have data : ∀ deletions,
      (rrsetData orders db name ⟨∅, itemsOf db name, deletions⟩).isSome := by
    intro deletions
    have rows : ((orders.items.visit ((∅ ∪ itemsOf db name) \ deletions)).mapM
        (replacement db name)).isSome := by
      apply Library.Runs.mapM_isSome
      intro item member
      rw [mem_visit_iff, Finset.mem_sdiff, Finset.empty_union, mem_itemsOf] at member
      rw [replacement, Option.isSome_map]
      exact member.1
    obtain ⟨replaced, found⟩ := Option.isSome_iff_exists.mp rows
    rw [rrsetData, found]
    rfl
  obtain ⟨entries, requested⟩ := Option.isSome_iff_exists.mp
    (data
      (((datasOf listing name zone).map Prod.fst).toFinset \ itemsOf db name |>.erase (soa, [])))
  simp only [syncToPdns, conflict, read, Option.bind_eq_bind, Option.bind_some, pdnsDo, requested]
  split
  · simp [transfer, path, send, accepting, handle, copied, there]
  · simp [transfer, path, send, accepting, handle, copied, there]

end Synchronised

section Examples

def name₁ : Text := "b.example".toList

def soaRRset : RRset := ⟨300, {soaContent}⟩

def address : Item := ("A".toList, "www".toList)

def stale : Item := ("A".toList, "ftp".toList)

/-- An RRset with an address, and one without records. -/
def db₁ : Database :=
  Finmap.insert name₁ (Finmap.insert address ⟨300, {"192.0.2.1".toList}⟩
    (Finmap.insert ("TXT".toList, []) ⟨300, ∅⟩ ∅)) ∅

/-- A zone with a SOA record and an RRset that the database does not have. -/
def zone₁ : Zone :=
  Finmap.insert (zoneKey name₁ (soa, [])) soaRRset
    (Finmap.insert (zoneKey name₁ stale) ⟨60, {"192.0.2.2".toList}⟩ ∅)

def servers₁ : Servers where
  lord := Finmap.insert (zoneId name₁) zone₁ ∅
  master := Finmap.insert (zoneId name₁) ∅ ∅
  catalog := ∅

noncomputable def orders₁ : Orders := ⟨default, default, ⟨default, default⟩⟩

private theorem qualified_zone₁ (zone : Zone)
    (there : servers₁.lord.lookup (zoneId name₁) = some zone) :
    Qualified name₁ zone := by
  have same : servers₁.lord.lookup (zoneId name₁) = some zone₁ := Finmap.lookup_insert _
  obtain rfl := Option.some.inj (same.symm.trans there)
  intro key rrset found
  by_contra foreign
  rw [zone₁, Finmap.lookup_insert_of_ne _ fun equal => foreign ⟨_, equal.symm⟩,
    Finmap.lookup_insert_of_ne _ fun equal => foreign ⟨_, equal.symm⟩, Finmap.lookup_empty] at found
  cases found

theorem repairs_and_roundtrips_sample : ∃ servers' created,
    syncToPdns ⟨[], 0, [], false, id⟩ (fun _ _ => true) orders₁ default db₁ name₁ servers₁ =
      some (servers', created) ∧
    (∃ zone, servers'.lord.lookup (zoneId name₁) = some zone ∧
      Repaired db₁ name₁ (priorZone ⟨[], 0, [], false, id⟩ servers₁ name₁) zone) ∧
    ∀ again : Listing,
      (Stored db₁ name₁ → (importRows again servers' name₁).isSome) ∧
      ∀ item, item.1 ∉ typesAutomatic →
        shown RRset.blank (value (syncFromPdns again db₁ name₁ servers') name₁ item) =
          shown RRset.blank (value db₁ name₁ item) := by
  have valid : validateDomainName .plain name₁ = true := by decide
  have succeeds : (syncToPdns ⟨[], 0, [], false, id⟩ (fun _ _ => true) orders₁ default db₁ name₁
      servers₁).isSome :=
    syncToPdns_isSome valid (show pdnsId name₁ = some _ by rfl) (fun _ _ => rfl) (by decide)
      (by decide)
  obtain ⟨⟨servers', created⟩, done⟩ := Option.isSome_iff_exists.mp succeeds
  exact ⟨servers', created, done,
    repairs_and_roundtrips valid qualified_zone₁ (by decide) done⟩

end Examples

end DesecStack.Changes.Sync
