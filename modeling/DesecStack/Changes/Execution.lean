/- module: DesecStack/Changes/Execution
   layer: lemmas
   digest: What the execution of the computed changes does to the zone of each domain. -/

import DesecStack.Library.Runs
import DesecStack.Changes.Compute

set_option autoImplicit false
set_option relaxedAutoImplicit false

namespace DesecStack.Changes.Execution

open Library.PyText (Text Dict Unicode)
open Library.SetOrder (VisitOrder mem_visit_iff)
open Library.Runs (mapM_eq_some_iff exists_of_forall₂_left map_eq_of_forall₂)
open Library.Journal (shown)
open Names.Validators (validateDomainName ne_nil)
open Models History Tracker Pdns Compute

variable {unicode : Unicode} {settings : Settings} {accepts : Accepts} {orders : Orders}

theorem handle_of_send {request : Request} {servers servers' : Servers}
    (sent : send settings accepts request servers = some servers') :
    handle settings servers request = some servers' := by
  unfold send at sent
  split at sent
  · exact sent
  · exact absurd sent (by simp)

theorem lord_of_createMaster {name : Text} {servers servers' : Servers}
    (sent : send settings accepts (.createZoneMaster name) servers = some servers') :
    servers'.lord = servers.lord := by
  have handled := handle_of_send sent
  simp only [handle, Option.ite_none_right_eq_some, Option.some.injEq] at handled
  rw [← handled.2]

private theorem lord_of_deleteMaster {id : Text} {servers servers' : Servers}
    (sent : send settings accepts (.deleteZoneMaster id) servers = some servers') :
    servers'.lord = servers.lord := by
  have handled := handle_of_send sent
  simp only [handle, Option.ite_none_left_eq_some, Option.some.injEq] at handled
  rw [← handled.2]

theorem lord_of_updateCatalog {name : Text} {delete : Bool} {servers servers' : Servers}
    (sent : updateCatalog settings accepts name delete servers = some servers') :
    servers'.lord = servers.lord := by
  simp only [updateCatalog, Option.bind_eq_bind, Option.bind_eq_some_iff] at sent
  obtain ⟨id, -, sent⟩ := sent
  have handled := handle_of_send sent
  cases delete <;>
  · simp only [handle, if_true, Bool.false_eq_true, if_false, Option.some.injEq] at handled
    rw [← handled]

private theorem lord_of_pchDo {change : PDNSChange} {servers servers' : Servers}
    (done : pchDo settings accepts servers change = some servers') :
    servers'.lord = servers.lord := by
  cases change with
  | createDomain name =>
    have handled := handle_of_send done
    simp only [handle, Option.some.injEq] at handled
    rw [handled]
  | deleteDomain name =>
    have handled := handle_of_send done
    simp only [handle, Option.some.injEq] at handled
    rw [handled]
  | createUpdateDeleteRRSets name p =>
    simp only [pchDo, Option.some.injEq] at done
    rw [done]

private theorem parts_of_execute {progress next : Progress} {change : PDNSChange}
    (done : execute unicode settings accepts orders progress change = some next) :
    ∃ servers, pdnsDo settings accepts orders progress.db progress.servers change = some servers ∧
      apiDo unicode settings orders progress.db change = some next.db ∧
      next.servers.lord = servers.lord := by
  simp only [execute, Option.bind_eq_bind, Option.bind_eq_some_iff, Option.pure_def,
    Option.some.injEq] at done
  obtain ⟨servers, pdns, db, api, after, pch, rfl⟩ := done
  refine ⟨servers, pdns, api, ?_⟩
  split at pch
  · exact lord_of_pchDo pch
  · rw [Option.some.inj pch]

/-- A change of nslord that concerns one zone at most. -/
def Local (name : Text) (lord lord' : Dict Text Zone) : Prop :=
  ∀ id, id ≠ zoneId name → lord'.lookup id = lord.lookup id

private theorem pdnsDo_createDomain {db : Database} {name : Text} {servers servers' : Servers}
    (done : pdnsDo settings accepts orders db servers (.createDomain name) = some servers') :
    servers'.lord.lookup (zoneId name) = some (newZone settings name) ∧
      Local name servers.lord servers'.lord := by
  simp only [pdnsDo, Option.bind_eq_bind, Option.bind_eq_some_iff] at done
  obtain ⟨lord, lordSent, master, masterSent, catalogSent⟩ := done
  have handled := handle_of_send lordSent
  simp only [handle, Option.ite_none_right_eq_some, Option.some.injEq] at handled
  rw [lord_of_updateCatalog catalogSent, lord_of_createMaster masterSent, ← handled.2]
  exact ⟨Finmap.lookup_insert _, fun id other => Finmap.lookup_insert_of_ne _ other⟩

private theorem pdnsDo_deleteDomain {db : Database} {name : Text} {servers servers' : Servers}
    (valid : validateDomainName unicode name = true)
    (done : pdnsDo settings accepts orders db servers (.deleteDomain name) = some servers') :
    servers'.lord.lookup (zoneId name) = none ∧ Local name servers.lord servers'.lord := by
  simp only [pdnsDo, Option.bind_eq_bind, Option.bind_eq_some_iff] at done
  obtain ⟨id, path, lord, lordSent, master, masterSent, catalogSent⟩ := done
  obtain rfl := pdnsId_eq valid path
  have handled := handle_of_send lordSent
  simp only [handle, Option.ite_none_left_eq_some, Option.some.injEq] at handled
  rw [lord_of_updateCatalog catalogSent, lord_of_deleteMaster masterSent, ← handled.2]
  exact ⟨Finmap.lookup_erase _ _, fun id other => Finmap.lookup_erase_ne other⟩

theorem pdnsDo_createUpdateDeleteRRSets {db : Database} {name : Text} {p : Pending}
    {servers servers' : Servers} (valid : validateDomainName unicode name = true)
    (done : pdnsDo settings accepts orders db servers (.createUpdateDeleteRRSets name p)
      = some servers') :
    ∃ data, rrsetData orders db name p = some data ∧
      servers'.lord.lookup (zoneId name)
        = (servers.lord.lookup (zoneId name)).map (fun zone => patch zone data) ∧
      Local name servers.lord servers'.lord := by
  simp only [pdnsDo, Option.bind_eq_bind, Option.bind_eq_some_iff] at done
  obtain ⟨data, read, done⟩ := done
  refine ⟨data, read, ?_⟩
  split at done
  case isTrue empty =>
    obtain rfl := List.isEmpty_iff.mp empty
    obtain rfl := Option.some.inj done
    exact ⟨by simp [patch], fun _ _ => rfl⟩
  case isFalse =>
    simp only [Option.bind_eq_some_iff] at done
    obtain ⟨id, path, sent⟩ := done
    obtain rfl := pdnsId_eq valid path
    have handled := handle_of_send sent
    simp only [handle, Option.map_eq_some_iff] at handled
    obtain ⟨zone, found, rfl⟩ := handled
    exact ⟨by simp [found], fun id other => Finmap.lookup_insert_of_ne _ other⟩

/-- The contents a zone takes over from the database when the pending sets are sent. -/
structure Replays (db : Database) (name : Text) (p : Pending) (f : Zone → Zone) : Prop where
  regular (zone : Zone) (item : Item) : (f zone).lookup (zoneKey name item)
    = if item ∈ p.deletions then none
      else if item ∈ p.additions ∪ p.modifications then shown RRset.blank (value db name item)
      else zone.lookup (zoneKey name item)
  foreign (zone : Zone) (key : Text × Text) (outside : ∀ item, zoneKey name item ≠ key) :
    (f zone).lookup key = zone.lookup key

theorem replays_nothing (db : Database) (name : Text) {p : Pending}
    (nothing : p.additions ∪ p.modifications ∪ p.deletions = ∅) :
    Replays db name p fun zone => zone where
  regular zone item := by
    simp only [Finset.union_eq_empty] at nothing
    simp [nothing]
  foreign _ _ _ := rfl

theorem shown_some (rrset : RRset) :
    shown RRset.blank (some rrset) = if rrset.records = ∅ then none else some rrset := by
  by_cases empty : rrset.records = ∅ <;> simp [shown, RRset.blank, empty]

private theorem zoneKey_replacement {db : Database} {name : Text} {item : Item} {e : RRsetData}
    (read : replacement db name item = some e) : (e.name, e.type) = zoneKey name item := by
  simp only [replacement, Option.map_eq_some_iff] at read
  obtain ⟨-, -, rfl⟩ := read
  rfl

private theorem keys_rrsetData {db : Database} {name : Text} {p : Pending}
    {data : List RRsetData} (read : rrsetData orders db name p = some data) :
    data.map (fun e => (e.name, e.type))
      = (orders.items.visit p.deletions ++
          orders.items.visit ((p.additions ∪ p.modifications) \ p.deletions)).map
            (zoneKey name) := by
  simp only [rrsetData, Option.bind_eq_bind, Option.bind_eq_some_iff, Option.pure_def,
    Option.some.injEq] at read
  obtain ⟨replaced, all, rfl⟩ := read
  have rest := map_eq_of_forall₂ (g := fun e : RRsetData => (e.name, e.type))
    (mapM_eq_some_iff.mp all) fun item e => zoneKey_replacement
  simp only [List.map_append, rest, List.map_map]
  rfl

theorem replays_data {db : Database} {name : Text} {p : Pending} {data : List RRsetData}
    (nonempty : name ≠ []) (read : rrsetData orders db name p = some data) :
    Replays db name p fun zone => patch zone data := by
  have keys := keys_rrsetData read
  have nodup : (data.map fun e => (e.name, e.type)).Nodup := by
    rw [keys]
    refine List.Nodup.map (fun a b same => zoneKey_injective nonempty same) ?_
    refine List.Nodup.append (orders.items.nodup _) (orders.items.nodup _) ?_
    intro item deleted kept
    simp only [mem_visit_iff, Finset.mem_sdiff] at deleted kept
    exact kept.2 deleted
  have mem_keys (key : Text × Text) : key ∈ data.map (fun e => (e.name, e.type)) ↔
      ∃ item, (item ∈ p.deletions ∨ item ∈ p.additions ∪ p.modifications) ∧
        zoneKey name item = key := by
    rw [keys]
    simp only [List.mem_map, List.mem_append, mem_visit_iff, Finset.mem_sdiff]
    refine exists_congr fun item => and_congr_left fun _ => ?_
    tauto
  have untouched (zone : Zone) (key : Text × Text)
      (outside : key ∉ data.map fun e => (e.name, e.type)) :
      (patch zone data).lookup key = zone.lookup key :=
    patch_of_notMem data zone fun e member same => outside (List.mem_map.mpr ⟨e, member, same⟩)
  simp only [rrsetData, Option.bind_eq_bind, Option.bind_eq_some_iff, Option.pure_def,
    Option.some.injEq] at read
  obtain ⟨replaced, all, rfl⟩ := read
  refine ⟨fun zone item => ?_, fun zone key outside => untouched zone key fun member => ?_⟩
  · by_cases deleted : item ∈ p.deletions
    · have member : removal name item ∈ (orders.items.visit p.deletions).map (removal name)
          ++ replaced :=
        List.mem_append_left _ (List.mem_map.mpr ⟨item, by simpa using deleted, rfl⟩)
      have placed := patch_of_mem _ zone nodup member
      simpa [deleted, removal, zoneKey] using placed
    · by_cases kept : item ∈ p.additions ∪ p.modifications
      · have visited : item ∈ orders.items.visit
          ((p.additions ∪ p.modifications) \ p.deletions) := by
          simp only [mem_visit_iff, Finset.mem_sdiff]
          exact ⟨kept, deleted⟩
        obtain ⟨e, found, one⟩ := exists_of_forall₂_left (mapM_eq_some_iff.mp all) visited
        have placed := patch_of_mem _ zone nodup (List.mem_append_right _ found)
        rw [zoneKey_replacement one] at placed
        simp only [replacement, Option.map_eq_some_iff] at one
        obtain ⟨rrset, stored, rfl⟩ := one
        rw [placed, stored, shown_some]
        simp [deleted, kept]
      · have outside : zoneKey name item ∉ ((orders.items.visit p.deletions).map (removal name)
            ++ replaced).map fun e => (e.name, e.type) := by
          rw [mem_keys]
          rintro ⟨other, member, same⟩
          obtain rfl := zoneKey_injective nonempty same
          exact member.elim deleted kept
        simp [untouched zone _ outside, deleted, kept]
  · obtain ⟨item, -, same⟩ := (mem_keys key).mp member
    exact outside item same

/-- A new domain gets the default NS RRset, if it has none. -/
theorem apiDo_createDomain {db db' : Database} {name : Text}
    (done : apiDo unicode settings orders db (.createDomain name) = some db') :
    value db name nsItem = none ∧
      (∀ item, value db' name item
        = if item = nsItem then some ⟨settings.defaultNsTtl, settings.defaultNs.toFinset⟩
          else value db name item) ∧
      (∀ d, (db'.lookup d).isSome = (db.lookup d).isSome) ∧
      ∀ d, d ≠ name → db'.lookup d = db.lookup d := by
  simp only [apiDo, performAll, perform, Option.map_eq_some_iff, Option.bind_eq_bind,
    Option.bind_eq_some_iff, Option.pure_def, Option.some.injEq, Prod.exists, Prod.mk.injEq,
    Option.ite_none_right_eq_some] at done
  obtain ⟨_, _, ⟨created, _, ⟨rrsets, found, ⟨absent, -⟩, rfl, -⟩, _, _,
    ⟨last, _, ⟨rrset, stored, bulk⟩, _, _, ⟨rfl, -⟩, rfl, -⟩, rfl, -⟩, rfl⟩ := done
  have present : (db.lookup name).isSome := by simp [found]
  have empty : value db name nsItem = none := by simp [value, found, absent]
  rw [value_put present, if_pos ⟨rfl, rfl⟩] at stored
  obtain rfl := Option.some.inj stored
  refine ⟨empty, ?_⟩
  split at bulk
  case isTrue none =>
    obtain ⟨rfl, -⟩ := Prod.mk.inj (Option.some.inj bulk)
    refine ⟨fun item => ?_, fun d => lookup_put_isSome .., fun d other => lookup_put_of_ne other ..⟩
    rw [value_put present, none]
    simp
  case isFalse =>
    simp only [Option.ite_none_right_eq_some, Option.some.injEq, Prod.mk.injEq] at bulk
    obtain ⟨-, rfl, -⟩ := bulk
    refine ⟨fun item => ?_, fun d => by simp, fun d other => ?_⟩
    · rw [value_put (by simpa using present), value_put present]
      by_cases same : item = nsItem <;> simp [same]
    · rw [lookup_put_of_ne other, lookup_put_of_ne other]

/-- What the changes of one domain leave of it, from the database at the start of the loop. -/
structure Outcome (settings : Settings) (t : PDNSChangeTracker) (db : Database) (name : Text)
    (lord : Dict Text Zone) (db' : Database) (lord' : Dict Text Zone) : Prop where
  unoccupied : name ∈ t.domainAdditions → value db name nsItem = none
  values (item : Item) : value db' name item
    = if name ∈ t.domainAdditions ∧ item = nsItem then
        some ⟨settings.defaultNsTtl, settings.defaultNs.toFinset⟩
      else value db name item
  present : (db'.lookup name).isSome = (db.lookup name).isSome
  zone : ∃ f, lord'.lookup (zoneId name)
      = (if name ∈ t.domainAdditions then some (newZone settings name)
          else lord.lookup (zoneId name)).map f ∧
    Replays db' name (announce db name (pending t name)) f

/-- Nothing but one domain and its zone has changed. -/
structure Untouched (name : Text) (before after : Progress) : Prop where
  databases (d : Text) (other : d ≠ name) : after.db.lookup d = before.db.lookup d
  zones : Local name before.servers.lord after.servers.lord

private def creation (t : PDNSChangeTracker) (name : Text) : List PDNSChange :=
  if name ∈ t.domainAdditions then [.createDomain name] else []

private def sending (name : Text) (p : Pending) : List PDNSChange :=
  if p.additions ∪ p.modifications ∪ p.deletions = ∅ then []
  else [.createUpdateDeleteRRSets name p]

private theorem changesOf_eq {t : PDNSChangeTracker} {db : Database} {name : Text}
    {changes : List PDNSChange} (computed : changesOf t db name = some changes) :
    changes = creation t name ++ sending name (announce db name (pending t name)) := by
  simp only [changesOf, Option.ite_none_right_eq_some] at computed
  obtain ⟨-, computed⟩ := computed
  unfold creation sending
  split at computed
  · next empty => rw [if_pos empty, List.append_nil, ← Option.some.inj computed]
  · next nonempty => rw [if_neg nonempty, ← Option.some.inj computed]

private theorem executed_creation {t : PDNSChangeTracker} {name : Text} {before after : Progress}
    (done : (creation t name).foldlM (execute unicode settings accepts orders) before
      = some after) :
    (name ∈ t.domainAdditions → value before.db name nsItem = none) ∧
      (∀ item, value after.db name item
        = if name ∈ t.domainAdditions ∧ item = nsItem then
            some ⟨settings.defaultNsTtl, settings.defaultNs.toFinset⟩
          else value before.db name item) ∧
      (after.db.lookup name).isSome = (before.db.lookup name).isSome ∧
      after.servers.lord.lookup (zoneId name)
        = (if name ∈ t.domainAdditions then some (newZone settings name)
            else before.servers.lord.lookup (zoneId name)) ∧
      Untouched name before after := by
  unfold creation at done
  split at done
  case isTrue added =>
    simp only [List.foldlM_cons, List.foldlM_nil, bind_pure] at done
    obtain ⟨servers, pdns, api, same⟩ := parts_of_execute done
    obtain ⟨zone, others⟩ := pdnsDo_createDomain pdns
    obtain ⟨unoccupied, values, present, databases⟩ := apiDo_createDomain api
    exact ⟨fun _ => unoccupied, by simpa [added] using values, present name,
      by simpa [added, same] using zone, databases, by rwa [same]⟩
  case isFalse old =>
    obtain rfl : before = after := by simpa using done
    exact ⟨fun added => absurd added old, by simp [old], rfl, by simp [old], fun _ _ => rfl,
      fun _ _ => rfl⟩

private theorem executed_sending {name : Text} {p : Pending} {before after : Progress}
    (valid : validateDomainName unicode name = true)
    (done : (sending name p).foldlM (execute unicode settings accepts orders) before
      = some after) :
    after.db = before.db ∧
      (∃ f, after.servers.lord.lookup (zoneId name)
          = (before.servers.lord.lookup (zoneId name)).map f ∧ Replays after.db name p f) ∧
      Untouched name before after := by
  unfold sending at done
  split at done
  case isTrue empty =>
    obtain rfl : before = after := by simpa using done
    exact ⟨rfl, ⟨_, by simp, replays_nothing _ name empty⟩, fun _ _ => rfl, fun _ _ => rfl⟩
  case isFalse =>
    simp only [List.foldlM_cons, List.foldlM_nil, bind_pure] at done
    obtain ⟨servers, pdns, api, same⟩ := parts_of_execute done
    obtain ⟨data, read, zone, others⟩ := pdnsDo_createUpdateDeleteRRSets valid pdns
    have kept : after.db = before.db := (Option.some.inj api).symm
    refine ⟨kept, ⟨_, by rw [same]; exact zone, ?_⟩, fun d _ => by rw [kept], by rwa [same]⟩
    rw [kept]
    exact replays_data (ne_nil unicode valid) read

private theorem outcome_of_changesOf {t : PDNSChangeTracker} {db : Database} {name : Text}
    {changes : List PDNSChange} {before after : Progress}
    (valid : validateDomainName unicode name = true)
    (computed : changesOf t db name = some changes)
    (same : before.db.lookup name = db.lookup name)
    (done : changes.foldlM (execute unicode settings accepts orders) before = some after) :
    Outcome settings t db name before.servers.lord after.db after.servers.lord ∧
      Untouched name before after := by
  rw [changesOf_eq computed, List.foldlM_append, Option.bind_eq_bind,
    Option.bind_eq_some_iff] at done
  obtain ⟨middle, first, second⟩ := done
  obtain ⟨unoccupied, values, present, zone, untouched⟩ := executed_creation first
  obtain ⟨kept, ⟨f, sent, replays⟩, rest⟩ := executed_sending valid second
  have read (item : Item) : value before.db name item = value db name item := by
    simp [value, same]
  refine ⟨⟨fun added => read nsItem ▸ unoccupied added, fun item => ?_, ?_, f, ?_, replays⟩,
    fun d other => ?_, fun id other => ?_⟩
  · rw [kept, values item, read item]
  · rw [kept, present, same]
  · rw [sent, zone]
  · rw [rest.databases d other, untouched.databases d other]
  · rw [rest.zones id other, untouched.zones id other]

theorem Outcome.congr {t : PDNSChangeTracker} {db db₁ db₂ : Database} {name : Text}
    {lord₁ lord₂ lord₁' lord₂' : Dict Text Zone}
    (outcome : Outcome settings t db name lord₁ db₁ lord₁')
    (before : lord₂.lookup (zoneId name) = lord₁.lookup (zoneId name))
    (databases : db₂.lookup name = db₁.lookup name)
    (after : lord₂'.lookup (zoneId name) = lord₁'.lookup (zoneId name)) :
    Outcome settings t db name lord₂ db₂ lord₂' := by
  have read (item : Item) : value db₂ name item = value db₁ name item := by
    simp [value, databases]
  obtain ⟨f, zone, replays⟩ := outcome.zone
  refine ⟨outcome.unoccupied, fun item => ?_, ?_, f, ?_, fun z item => ?_, replays.foreign⟩
  · rw [read, outcome.values]
  · rw [databases, outcome.present]
  · rw [after, before, zone]
  · rw [read, replays.regular]

theorem outcomes_of_loop {t : PDNSChangeTracker} {db : Database} (names : List Text) :
    ∀ {later : List (List PDNSChange)} {before after : Progress}, names.Nodup →
      (∀ n ∈ names, validateDomainName unicode n = true) →
      (∀ n ∈ names, before.db.lookup n = db.lookup n) →
      names.mapM (changesOf t db) = some later →
      later.flatten.foldlM (execute unicode settings accepts orders) before = some after →
      (∀ n ∈ names, Outcome settings t db n before.servers.lord after.db after.servers.lord) ∧
        (∀ d, d ∉ names → after.db.lookup d = before.db.lookup d) ∧
        ∀ id, (∀ n ∈ names, id ≠ zoneId n) →
          after.servers.lord.lookup id = before.servers.lord.lookup id := by
  induction names with
  | nil =>
    intro later before after _ _ _ computed done
    obtain rfl : later = [] := by simpa using computed.symm
    obtain rfl : before = after := by simpa using done
    simp
  | cons name names ih =>
    intro later before after nodup valid same computed done
    obtain ⟨absent, nodup⟩ := List.nodup_cons.mp nodup
    simp only [List.mapM_cons, Option.bind_eq_bind, Option.bind_eq_some_iff, Option.pure_def,
      Option.some.injEq] at computed
    obtain ⟨changes, one, rest, others, rfl⟩ := computed
    rw [List.flatten_cons, List.foldlM_append, Option.bind_eq_bind,
      Option.bind_eq_some_iff] at done
    obtain ⟨middle, first, second⟩ := done
    have validHead := valid name (List.mem_cons_self ..)
    obtain ⟨outcome, untouched⟩ := outcome_of_changesOf validHead one
      (same name (List.mem_cons_self ..)) first
    have distinct {n : Text} (member : n ∈ names) : n ≠ name := fun h => absent (h ▸ member)
    have apart {n : Text} (member : n ∈ names) : zoneId n ≠ zoneId name := fun h =>
      distinct member (zoneId_injective (valid n (List.mem_cons_of_mem _ member)) validHead h)
    obtain ⟨outcomes, databases, zones⟩ := ih nodup
      (fun n member => valid n (List.mem_cons_of_mem _ member))
      (fun n member => (untouched.databases n (distinct member)).trans
        (same n (List.mem_cons_of_mem _ member))) others second
    refine ⟨fun n member => ?_, fun d outside => ?_, fun id outside => ?_⟩
    · rcases List.mem_cons.mp member with rfl | member
      · exact outcome.congr rfl (databases n absent)
          (zones _ fun m later => (apart later).symm)
      · exact (outcomes n member).congr (untouched.zones _ (apart member)).symm rfl rfl
    · simp only [List.mem_cons, not_or] at outside
      rw [databases d outside.2, untouched.databases d outside.1]
    · rw [zones id fun n member => outside n (List.mem_cons_of_mem _ member),
        untouched.zones id (outside name (List.mem_cons_self ..))]

theorem zones_of_deletions (deleted : List Text) :
    ∀ {before after : Progress}, (∀ n ∈ deleted, validateDomainName unicode n = true) →
      (deleted.map PDNSChange.deleteDomain).foldlM (execute unicode settings accepts orders) before
        = some after →
      after.db = before.db ∧
        (∀ n ∈ deleted, after.servers.lord.lookup (zoneId n) = none) ∧
        ∀ id, (∀ n ∈ deleted, id ≠ zoneId n) →
          after.servers.lord.lookup id = before.servers.lord.lookup id := by
  induction deleted with
  | nil =>
    intro before after _ done
    obtain rfl : before = after := by simpa using done
    simp
  | cons name deleted ih =>
    intro before after valid done
    simp only [List.map_cons, List.foldlM_cons, Option.bind_eq_bind,
      Option.bind_eq_some_iff] at done
    obtain ⟨middle, first, second⟩ := done
    obtain ⟨servers, pdns, api, same⟩ := parts_of_execute first
    obtain ⟨gone, others⟩ := pdnsDo_deleteDomain (valid name (List.mem_cons_self ..)) pdns
    obtain ⟨kept, rest, zones⟩ := ih (fun n member => valid n (List.mem_cons_of_mem _ member))
      second
    have unchanged : middle.db = before.db := (Option.some.inj api).symm
    refine ⟨kept.trans unchanged, fun n member => ?_, fun id outside => ?_⟩
    · by_cases later : n ∈ deleted
      · exact rest n later
      · obtain rfl := (List.mem_cons.mp member).resolve_right later
        by_cases again : ∀ m ∈ deleted, zoneId n ≠ zoneId m
        · rw [zones _ again, same, gone]
        · push Not at again
          obtain ⟨m, found, equal⟩ := again
          rw [equal, rest m found]
    · rw [zones id fun n member => outside n (List.mem_cons_of_mem _ member), same,
        others id (outside name (List.mem_cons_self ..))]

end DesecStack.Changes.Execution
