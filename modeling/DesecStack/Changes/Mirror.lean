/- module: DesecStack/Changes/Mirror
   layer: refinement
   digest: When PowerDNS mirrors the database again after a tracked block of writes. -/

import DesecStack.Changes.Execution

set_option autoImplicit false
set_option relaxedAutoImplicit false

namespace DesecStack.Changes.Mirror

open Library.PyText (Text Dict Unicode)
open Library.SetOrder (VisitOrder mem_visit_iff visit_empty visit_singleton)
open Library.Runs (mapM_congr)
open Library.Journal (Mark Flip Agrees Settled announced replayed replayed_eq_iff shown)
open Names.Validators (validateDomainName ne_nil)
open Models History Tracker Pdns Compute Execution

variable {unicode : Unicode} {settings : Settings} {accepts : Accepts} {orders : Orders}

/-- The SOA record of a zone is kept by PowerDNS alone. -/
def soaItem : Item := (soa, [])

/-- The zone of a domain holds its RRsets that have RRs, and nothing else. -/
structure ZoneMirrors (db : Database) (name : Text) (zone : Zone) : Prop where
  regular (item : Item) (managed : item ≠ soaItem) :
    zone.lookup (zoneKey name item) = shown RRset.blank (value db name item)
  foreign (key : Text × Text) (outside : ∀ item, zoneKey name item ≠ key) :
    zone.lookup key = none

/-- Nslord has the zones of the existing domains, each as in the database. -/
structure Mirrors (db : Database) (servers : Servers) : Prop where
  zones (name : Text) (present : (db.lookup name).isSome) :
    ∃ zone, servers.lord.lookup (zoneId name) = some zone ∧ ZoneMirrors db name zone
  domains (id : Text) (present : (servers.lord.lookup id).isSome) :
    ∃ name, (db.lookup name).isSome ∧ zoneId name = id

private theorem discardAll_spec (deleted : List Text) :
    ∀ t : PDNSChangeTracker,
      (deleted.foldl discardChanges t).domainAdditions = t.domainAdditions ∧
        (∀ d, d ∉ deleted → pending (deleted.foldl discardChanges t) d = pending t d) ∧
        ∀ d, ((deleted.foldl discardChanges t).rrSetAdditions.lookup d).isSome ↔
          (t.rrSetAdditions.lookup d).isSome ∧ d ∉ deleted := by
  induction deleted with
  | nil => simp
  | cons name deleted ih =>
    intro t
    obtain ⟨additions, kept, keys⟩ := ih (discardChanges t name)
    refine ⟨additions, fun d outside => ?_, fun d => ?_⟩
    · simp only [List.mem_cons, not_or] at outside
      rw [List.foldl_cons, kept d outside.2, pending_discardChanges, if_neg outside.1]
    · rw [List.foldl_cons, keys d]
      by_cases same : d = name
      · subst same
        simp [discardChanges]
      · simp [discardChanges, Finmap.lookup_erase_ne same, same]

private theorem pending_empty {t : PDNSChangeTracker} (aligned : Aligned t) {name : Text}
    (absent : t.rrSetAdditions.lookup name = none) : pending t name = ⟨∅, ∅, ∅⟩ := by
  obtain ⟨additions, deletions⟩ := aligned name
  simp_all [pending]

private theorem mem_changedNames (t : PDNSChangeTracker) (d : Text) :
    d ∈ changedNames orders (discardDeleted orders t) ↔
      (t.rrSetAdditions.lookup d).isSome ∧ d ∉ t.domainDeletions ∨ d ∈ t.domainAdditions := by
  obtain ⟨additions, -, keys⟩ := discardAll_spec (orders.names.visit t.domainDeletions) t
  have key : d ∈ (discardDeleted orders t).rrSetAdditions.keys ↔
      (t.rrSetAdditions.lookup d).isSome ∧ d ∉ t.domainDeletions := by
    rw [Finmap.mem_keys, ← Finmap.lookup_isSome, discardDeleted, keys d, mem_visit_iff]
  rw [changedNames, mem_visit_iff, Finset.mem_union, key, discardDeleted, additions]

section Tracked

variable {start db : Database} {signals : List Signal} {t : PDNSChangeTracker}
  (tracked : Tracked unicode start db signals t)
include tracked

theorem mem_domainAdditions (d : Text) :
    d ∈ t.domainAdditions ↔ (db.lookup d).isSome = true ∧ (start.lookup d).isSome = false := by
  have said := congrArg Flip.added (tracked.flips d)
  simp only [domainFlip, Flip.between] at said
  rw [← decide_eq_true_iff (p := d ∈ t.domainAdditions), said]
  simp

theorem mem_domainDeletions (d : Text) :
    d ∈ t.domainDeletions ↔ (start.lookup d).isSome = true ∧ (db.lookup d).isSome = false := by
  have said := congrArg Flip.deleted (tracked.flips d)
  simp only [domainFlip, Flip.between] at said
  rw [← decide_eq_true_iff (p := d ∈ t.domainDeletions), said]
  simp

private theorem notMem_domainDeletions {d : Text}
    (member : d ∈ changedNames orders (discardDeleted orders t)) : d ∉ t.domainDeletions := by
  intro deleted
  rcases (mem_changedNames t d).mp member with ⟨-, kept⟩ | added
  · exact kept deleted
  · have now := ((mem_domainAdditions tracked d).mp added).1
    simp [((mem_domainDeletions tracked d).mp deleted).2] at now

theorem valid_of_mem_changedNames (named : Named unicode db) {d : Text}
    (member : d ∈ changedNames orders (discardDeleted orders t)) :
    validateDomainName unicode d = true := by
  rcases (mem_changedNames t d).mp member with ⟨key, -⟩ | added
  · exact tracked.named d key
  · exact named d (Finmap.lookup_isSome.mp ((mem_domainAdditions tracked d).mp added).1)

private theorem mapM_changesOf :
    (changedNames orders (discardDeleted orders t)).mapM
        (changesOf (discardDeleted orders t) db)
      = (changedNames orders (discardDeleted orders t)).mapM (changesOf t db) := by
  refine mapM_congr fun n member => ?_
  obtain ⟨additions, kept, -⟩ := discardAll_spec (orders.names.visit t.domainDeletions) t
  have outside : n ∉ orders.names.visit t.domainDeletions := by
    simpa using notMem_domainDeletions tracked member
  simp only [changesOf, discardDeleted, kept n outside, additions]

theorem computeChanges_isSome (orders : Orders) : (computeChanges orders t db).isSome := by
  apply computeChanges_isSome_of_disjoint
  · intro name
    refine Finset.disjoint_left.mpr fun item added deleted => ?_
    have agrees := tracked.agrees name item
    have present := (agrees.added_present (by simpa [mark, Pending.mark] using added)).1
    have absent := (agrees.deleted_absent (by simpa [mark, Pending.mark] using deleted)).1
    simp [absent] at present
  · intro name
    refine Finset.disjoint_left.mpr fun item modified deleted => ?_
    have agrees := tracked.agrees name item
    have present := agrees.modified_present (by simpa [mark, Pending.mark] using modified)
    have absent := (agrees.deleted_absent (by simpa [mark, Pending.mark] using deleted)).1
    simp [absent] at present

end Tracked

/-- The execution as a whole: deleted domains lose their zones, the others have their
outcomes, and no other zone changes. -/
structure Executed (unicode : Unicode) (settings : Settings) (t : PDNSChangeTracker)
    (db : Database) (servers : Servers) (db' : Database) (servers' : Servers) : Prop where
  deleted (d : Text) (gone : d ∈ t.domainDeletions) : servers'.lord.lookup (zoneId d) = none
  kept (d : Text) (valid : validateDomainName unicode d = true) (stays : d ∉ t.domainDeletions) :
    Outcome settings t db d servers.lord db' servers'.lord
  present (d : Text) : (db'.lookup d).isSome = (db.lookup d).isSome
  others (id : Text) (other : ∀ d, validateDomainName unicode d = true → id ≠ zoneId d) :
    servers'.lord.lookup id = servers.lord.lookup id

theorem executed_of_executeAll {start db : Database} {signals : List Signal}
    {t : PDNSChangeTracker} {changes : List PDNSChange} {servers : Servers} {after : Progress}
    (tracked : Tracked unicode start db signals t) (namedStart : Named unicode start)
    (named : Named unicode db) (computed : computeChanges orders t db = some changes)
    (done : executeAll unicode settings accepts orders changes db servers = some after) :
    Executed unicode settings t db servers after.db after.servers := by
  simp only [computeChanges, Option.bind_eq_bind, Option.bind_eq_some_iff, Option.pure_def,
    Option.some.injEq, mapM_changesOf tracked] at computed
  obtain ⟨later, computed, rfl⟩ := computed
  rw [executeAll, List.foldlM_append, Option.bind_eq_bind, Option.bind_eq_some_iff] at done
  obtain ⟨middle, first, second⟩ := done
  have validDeleted : ∀ n ∈ orders.names.visit t.domainDeletions,
      validateDomainName unicode n = true := fun n member => by
    rw [mem_visit_iff] at member
    exact namedStart n (Finmap.lookup_isSome.mp ((mem_domainDeletions tracked n).mp member).1)
  obtain ⟨sameDb, gone, zones⟩ := zones_of_deletions _ validDeleted first
  have validNames : ∀ n ∈ changedNames orders (discardDeleted orders t),
      validateDomainName unicode n = true :=
    fun n member => valid_of_mem_changedNames tracked named member
  obtain ⟨outcomes, databases, rest⟩ := outcomes_of_loop _ (orders.names.nodup _) validNames
    (fun n _ => by rw [sameDb]) computed second
  simp only [mem_visit_iff] at gone zones
  refine ⟨fun d deleted => ?_, fun d valid stays => ?_, fun d => ?_, fun id other => ?_⟩
  · have valid := validDeleted d (by simpa using deleted)
    rw [rest _ fun n member same => notMem_domainDeletions tracked member
      (zoneId_injective valid (validNames n member) same ▸ deleted), gone d deleted]
  · have base : middle.servers.lord.lookup (zoneId d) = servers.lord.lookup (zoneId d) :=
      zones _ fun n deleted same => stays
        (zoneId_injective valid (validDeleted n (by simpa using deleted)) same ▸ deleted)
    by_cases member : d ∈ changedNames orders (discardDeleted orders t)
    · exact (outcomes d member).congr base.symm rfl rfl
    · have unlisted := member
      rw [mem_changedNames t d] at unlisted
      push Not at unlisted
      obtain ⟨unkeyed, old⟩ := unlisted
      have absent : t.rrSetAdditions.lookup d = none := by
        by_contra key
        exact stays (unkeyed (Option.isSome_iff_ne_none.mpr key))
      have same : after.db.lookup d = db.lookup d := by rw [databases d member, sameDb]
      refine ⟨fun added => absurd added old, fun item => ?_, by rw [same], fun zone => zone, ?_, ?_⟩
      · simp [value, same, old]
      · rw [rest _ fun n found equal => member
          (zoneId_injective valid (validNames n found) equal ▸ found), base]
        simp [old]
      · refine replays_nothing _ d ?_
        simp [announce, pending_empty tracked.aligned absent]
  · by_cases member : d ∈ changedNames orders (discardDeleted orders t)
    · exact (outcomes d member).present
    · rw [databases d member, sameDb]
  · rw [rest id fun n member => other n (validNames n member),
      zones id fun n deleted => other n (validDeleted n (by simpa using deleted))]

private theorem recordsExist_eq (db : Database) (name : Text) (item : Item) :
    recordsExist db name item = (shown RRset.blank (value db name item)).isSome := by
  cases stored : value db name item with
  | none => simp [recordsExist, shown, stored]
  | some rrset => cases blank : rrset.blank <;> simp [recordsExist, shown, stored, blank]

private theorem replayed_of_replays {start db db' : Database} {t : PDNSChangeTracker}
    {signals : List Signal} {name : Text} {item : Item} (zone : Zone) {f : Zone → Zone}
    (agrees : Agrees RRset.blank (value start name item) (events name item signals)
      (value db name item) (mark t name item))
    (replays : Replays db' name (announce db name (pending t name)) f)
    (same : value db' name item = value db name item)
    (before : zone.lookup (zoneKey name item) = shown RRset.blank (value start name item)) :
    (f zone).lookup (zoneKey name item)
      = replayed RRset.blank (value start name item) (value db name item) (mark t name item) := by
  have absent := agrees.deleted_absent
  rw [replays.regular, before, same]
  simp only [mark, Pending.mark, decide_eq_true_eq] at absent
  simp only [replayed, announced, mark, Pending.mark, announce, Finset.mem_union,
    Finset.mem_filter, recordsExist_eq, Bool.or_eq_true, Bool.and_eq_true, decide_eq_true_eq]
  by_cases deleted : item ∈ (pending t name).deletions
  · simp [deleted, absent deleted, shown]
  · simp only [deleted, if_false, false_or]
    refine if_congr ?_ rfl rfl
    tauto

private theorem zoneKey_apex {name : Text} (valid : validateDomainName unicode name = true)
    (type : Text) : zoneKey name (type, []) = (absoluteName name, type) := by
  have nonempty := ne_nil unicode valid
  simp [zoneKey, constructName, Library.PyText.join, absoluteName_eq valid, nonempty]

private theorem lookup_newZone {name : Text} (valid : validateDomainName unicode name = true)
    {item : Item} (managed : item ≠ soaItem) :
    (newZone settings name).lookup (zoneKey name item)
      = if item = nsItem then
          shown RRset.blank (some ⟨settings.defaultNsTtl, settings.defaultNs.toFinset⟩)
        else none := by
  have nonempty := ne_nil unicode valid
  have soaKey : zoneKey name soaItem = (absoluteName name, soa) := zoneKey_apex valid soa
  have nsKey : zoneKey name nsItem = (absoluteName name, ns) := zoneKey_apex valid ns
  by_cases same : item = nsItem
  · rw [if_pos same, same, newZone, ← nsKey, place_self, shown_some]
  · rw [if_neg same, newZone, ← nsKey, ← soaKey,
      place_of_ne fun equal => same (zoneKey_injective nonempty equal),
      place_of_ne fun equal => managed (zoneKey_injective nonempty equal)]
    rfl

private theorem lookup_newZone_foreign {name : Text}
    (valid : validateDomainName unicode name = true) {key : Text × Text}
    (outside : ∀ item, zoneKey name item ≠ key) : (newZone settings name).lookup key = none := by
  rw [newZone, ← zoneKey_apex valid soa, ← zoneKey_apex valid ns,
    place_of_ne (outside _).symm, place_of_ne (outside _).symm]
  rfl

private theorem zoneMirrors_new {start db db' : Database} {signals : List Signal}
    {t : PDNSChangeTracker} {name : Text} {lord lord' : Dict Text Zone}
    (tracked : Tracked unicode start db signals t)
    (valid : validateDomainName unicode name = true) (added : name ∈ t.domainAdditions)
    (outcome : Outcome settings t db name lord db' lord') :
    ∃ zone, lord'.lookup (zoneId name) = some zone ∧ ZoneMirrors db' name zone := by
  obtain ⟨f, zone, replays⟩ := outcome.zone
  rw [if_pos added, Option.map_some] at zone
  have absent : start.lookup name = none := by
    simpa using ((mem_domainAdditions tracked name).mp added).2
  refine ⟨_, zone, fun item managed => ?_, fun key outside => ?_⟩
  · by_cases isNs : item = nsItem
    · have unoccupied := outcome.unoccupied added
      have agrees := tracked.agrees name nsItem
      have unmarked : nsItem ∉ (pending t name).deletions := fun deleted => by
        have := (agrees.deleted_absent (by simpa [mark, Pending.mark] using deleted)).2.1
        simp [value_eq_none absent] at this
      subst isNs
      rw [replays.regular, outcome.values, lookup_newZone valid managed]
      simp [announce, unmarked, added]
    · have same : value db' name item = value db name item := by
        rw [outcome.values, if_neg fun h => isNs h.2]
      have replayed := replayed_of_replays (newZone settings name) (tracked.agrees name item)
        replays same (by
          rw [lookup_newZone valid managed, if_neg isNs, value_eq_none absent]
          rfl)
      rw [replayed, same, replayed_eq_iff (tracked.agrees name item), value_eq_none absent]
      simp [Settled, shown]
  · rw [replays.foreign _ _ outside, lookup_newZone_foreign valid outside]

/-- The zone of a domain that was there before mirrors it exactly when its RRsets are settled. -/
theorem zoneMirrors_kept_iff {start db db' : Database} {signals : List Signal}
    {t : PDNSChangeTracker} {name : Text} {lord lord' : Dict Text Zone} {zone : Zone}
    (tracked : Tracked unicode start db signals t) (old : name ∉ t.domainAdditions)
    (outcome : Outcome settings t db name lord db' lord')
    (found : lord.lookup (zoneId name) = some zone) (before : ZoneMirrors start name zone) :
    (∃ zone', lord'.lookup (zoneId name) = some zone' ∧ ZoneMirrors db' name zone') ↔
      ∀ item, item ≠ soaItem →
        Settled RRset.blank (value start name item) (events name item signals) := by
  obtain ⟨f, after, replays⟩ := outcome.zone
  rw [if_neg old, found, Option.map_some] at after
  have same (item : Item) : value db' name item = value db name item := by
    rw [outcome.values, if_neg fun h => old h.1]
  have settled (item : Item) (managed : item ≠ soaItem) :
      (f zone).lookup (zoneKey name item) = shown RRset.blank (value db' name item) ↔
        Settled RRset.blank (value start name item) (events name item signals) := by
    rw [replayed_of_replays zone (tracked.agrees name item) replays (same item)
      (before.regular item managed), same item, replayed_eq_iff (tracked.agrees name item)]
  constructor
  · rintro ⟨zone', isAfter, mirrors⟩ item managed
    obtain rfl := Option.some.inj (after.symm.trans isAfter)
    exact (settled item managed).mp (mirrors.regular item managed)
  · intro all
    exact ⟨f zone, after, fun item managed => (settled item managed).mpr (all item managed),
      fun key outside => by rw [replays.foreign _ _ outside, before.foreign key outside]⟩

/-- Every RRset that existed before and after in a domain that did so too is settled. -/
def AllSettled (start db : Database) (signals : List Signal) : Prop :=
  ∀ name item, (start.lookup name).isSome → (db.lookup name).isSome → item ≠ soaItem →
    Settled RRset.blank (value start name item) (events name item signals)

theorem mirrors_iff_allSettled {start db : Database} {signals : List Signal}
    {t : PDNSChangeTracker} {servers : Servers} {after : Progress}
    (tracked : Tracked unicode start db signals t) (namedStart : Named unicode start)
    (named : Named unicode db) (before : Mirrors start servers)
    (executed : Executed unicode settings t db servers after.db after.servers) :
    Mirrors after.db after.servers ↔ AllSettled start db signals := by
  have valid {d : Text} (present : (db.lookup d).isSome) : validateDomainName unicode d = true :=
    named d (Finmap.lookup_isSome.mp present)
  have stays {d : Text} (present : (db.lookup d).isSome) : d ∉ t.domainDeletions :=
    fun deleted => by simp [((mem_domainDeletions tracked d).mp deleted).2] at present
  constructor
  · intro mirrors d item there here managed
    obtain ⟨zone, found, mirrored⟩ := before.zones d there
    have old : d ∉ t.domainAdditions := fun added => by
      simp [((mem_domainAdditions tracked d).mp added).2] at there
    have outcome := executed.kept d (valid here) (stays here)
    exact (zoneMirrors_kept_iff tracked old outcome found mirrored).mp
      (mirrors.zones d (by rw [executed.present]; exact here)) item managed
  · intro settled
    refine ⟨fun d present => ?_, fun id present => ?_⟩
    · rw [executed.present] at present
      have outcome := executed.kept d (valid present) (stays present)
      by_cases added : d ∈ t.domainAdditions
      · exact zoneMirrors_new tracked (valid present) added outcome
      · have there : (start.lookup d).isSome = true := by
          by_contra absent
          exact added ((mem_domainAdditions tracked d).mpr ⟨present, by simpa using absent⟩)
        obtain ⟨zone, found, mirrored⟩ := before.zones d there
        exact (zoneMirrors_kept_iff tracked added outcome found mirrored).mpr fun item managed =>
          settled d item there present managed
    · by_cases known : ∃ d, validateDomainName unicode d = true ∧ id = zoneId d
      · obtain ⟨d, validName, rfl⟩ := known
        refine ⟨d, ?_, rfl⟩
        rw [executed.present]
        have undeleted : d ∉ t.domainDeletions := fun deleted => by
          simp [executed.deleted d deleted] at present
        by_cases added : d ∈ t.domainAdditions
        · exact ((mem_domainAdditions tracked d).mp added).1
        · obtain ⟨f, zone, -⟩ := (executed.kept d validName undeleted).zone
          rw [zone, if_neg added, Option.isSome_map] at present
          obtain ⟨m, there, same⟩ := before.domains _ present
          obtain rfl := zoneId_injective (namedStart m (Finmap.lookup_isSome.mp there))
            validName same
          by_contra gone
          exact undeleted ((mem_domainDeletions tracked m).mpr ⟨there, by simpa using gone⟩)
      · push Not at known
        rw [executed.others id known] at present
        obtain ⟨m, there, same⟩ := before.domains _ present
        exact absurd same.symm (known m (namedStart m (Finmap.lookup_isSome.mp there)))

/-- After a valid body of writes the signals were received and the changes computed without an
exception. Once these are executed, PowerDNS mirrors the database again exactly if every RRset
that showed before, in a domain that existed before and after, was not created again, or was
modified last. -/
theorem mirrors_after_block_iff (unicode : Unicode) (settings : Settings) (accepts : Accepts)
    (orders : Orders) {start db : Database} {servers : Servers} {body : List Operation}
    {signals : List Signal} (named : Named unicode start) (before : Mirrors start servers)
    (performed : performAll unicode orders.cascade body start = some (db, signals)) :
    ∃ t changes, receiveAll enter signals = some t ∧
      computeChanges orders t db = some changes ∧
      ∀ after, executeAll unicode settings accepts orders changes db servers = some after →
        (Mirrors after.db after.servers ↔ AllSettled start db signals) := by
  have told := told_of_performAll body (told_start named) performed
  rw [List.nil_append] at told
  obtain ⟨t, received, tracked⟩ := tracked_of_told told
  obtain ⟨changes, computed⟩ := Option.isSome_iff_exists.mp
    (computeChanges_isSome tracked orders)
  refine ⟨t, changes, received, computed, fun after executed => ?_⟩
  exact mirrors_iff_allSettled tracked named told.named before
    (executed_of_executeAll tracked named told.named computed executed)

section Recreation

def name₀ : Text := "a.example".toList

def item₀ : Item := ("A".toList, "www".toList)

def rrset₀ : RRset := ⟨300, {"192.0.2.1".toList}⟩

def start₀ : Database := Finmap.insert name₀ (Finmap.insert item₀ rrset₀ ∅) ∅

def servers₀ : Servers where
  lord := Finmap.insert (zoneId name₀) (Finmap.insert (zoneKey name₀ item₀) rrset₀ ∅) ∅
  master := Finmap.insert (zoneId name₀) ∅ ∅
  catalog := ∅

noncomputable def orders₀ : Orders := ⟨default, default, ⟨default, default⟩⟩

/-- An RRset is deleted, created again, and deleted again before it has any RR. -/
def recreation : List Operation :=
  [.deleteRRset name₀ item₀, .createRRset name₀ item₀ 300, .deleteRRset name₀ item₀]

def recreated : Database :=
  put (put (put start₀ name₀ item₀ none) name₀ item₀ (some ⟨300, ∅⟩)) name₀ item₀ none

def recreationSignals : List Signal :=
  [.rrPostDelete name₀ item₀, .rrsetPostDelete name₀ item₀, .rrsetPostSave name₀ item₀ true,
    .rrsetPostDelete name₀ item₀]

theorem named_start₀ : Named .plain start₀ := by
  intro name member
  have same : name = name₀ := by
    simpa [start₀, Finmap.notMem_empty] using member
  subst same
  decide

theorem mirrors_start₀ : Mirrors start₀ servers₀ := by
  refine ⟨fun name present => ?_, fun id present => ?_⟩
  · have same : name = name₀ := by
      rw [Finmap.lookup_isSome] at present
      simpa [start₀, Finmap.notMem_empty] using present
    subst same
    refine ⟨_, Finmap.lookup_insert _, fun item managed => ?_, fun key outside => ?_⟩
    · by_cases same : item = item₀
      · subst same
        rw [Finmap.lookup_insert]
        decide
      · have nonempty : name₀ ≠ [] := by decide
        rw [Finmap.lookup_insert_of_ne _ fun h => same (zoneKey_injective nonempty h)]
        simp [value, start₀, Finmap.lookup_insert_of_ne _ same, shown]
    · rw [Finmap.lookup_insert_of_ne _ (outside item₀).symm]
      rfl
  · refine ⟨name₀, by decide, ?_⟩
    rw [Finmap.lookup_isSome] at present
    simpa [servers₀, eq_comm, Finmap.notMem_empty] using present

private theorem performed_recreation :
    performAll .plain orders₀.cascade recreation start₀ = some (recreated, recreationSignals) := by
  have stored : value start₀ name₀ item₀ = some rrset₀ := by decide
  have rows : (rrset₀.records.image fun content => (item₀, content))
      = {(item₀, "192.0.2.1".toList)} := by decide
  have emptied : (put start₀ name₀ item₀ none).lookup name₀
      = some ((Finmap.insert item₀ rrset₀ (∅ : RRsets)).erase item₀) := by decide
  have fits : cnameExclusivity ((Finmap.insert item₀ rrset₀ (∅ : RRsets)).erase item₀) item₀ := by
    decide
  have clean : cleanRRset .plain item₀ 300 = true := by decide
  have again : value (put (put start₀ name₀ item₀ none) name₀ item₀ (some ⟨300, ∅⟩)) name₀ item₀
      = some ⟨300, ∅⟩ := by decide
  simp [performAll, perform, recreation, recreated, recreationSignals, stored, rows, emptied,
    fits, clean, again]

private theorem computeChanges_nothing {t : PDNSChangeTracker} {db : Database} {name : Text}
    (added : t.domainAdditions = ∅) (deleted : t.domainDeletions = ∅)
    (keys : t.rrSetAdditions.keys = {name}) (empty : pending t name = ⟨∅, ∅, ∅⟩) :
    computeChanges orders t db = some [] := by
  simp [computeChanges, discardDeleted, changedNames, changesOf, announce, added, deleted, keys,
    empty]

private theorem received_recreation : ∃ t, receiveAll enter recreationSignals = some t ∧
    t.domainAdditions = ∅ ∧ t.domainDeletions = ∅ ∧ t.rrSetAdditions.keys = {name₀} ∧
    (pending t name₀).additions = ∅ ∧ (pending t name₀).modifications = ∅ ∧
    (pending t name₀).deletions = ∅ := by
  refine ⟨_, rfl, ?_⟩
  decide

theorem mirrors_after_block_iff_recreation :
    ∃ t changes, receiveAll enter recreationSignals = some t ∧
      computeChanges orders₀ t recreated = some changes ∧
      ∀ after, executeAll .plain ⟨[], 0, [], false, id⟩ (fun _ _ => true) orders₀ changes
          recreated servers₀ = some after →
        (Mirrors after.db after.servers ↔ AllSettled start₀ recreated recreationSignals) :=
  mirrors_after_block_iff .plain _ _ orders₀ named_start₀ mirrors_start₀ performed_recreation

/-- The RRset is gone from the database, but the tracker has nothing to send. -/
theorem recreation_leaves_rrset :
    Named .plain start₀ ∧ Mirrors start₀ servers₀ ∧
      performAll .plain orders₀.cascade recreation start₀ = some (recreated, recreationSignals) ∧
      ∃ t after, receiveAll enter recreationSignals = some t ∧
        computeChanges orders₀ t recreated = some [] ∧
        executeAll .plain ⟨[], 0, [], false, id⟩ (fun _ _ => true) orders₀ []
          recreated servers₀ = some after ∧
        ¬ Mirrors after.db after.servers := by
  obtain ⟨t, received, noneAdded, noneDeleted, keys, additions, modifications, deletions⟩ :=
    received_recreation
  refine ⟨named_start₀, mirrors_start₀, performed_recreation, t, ⟨recreated, servers₀, ∅⟩,
    received, computeChanges_nothing noneAdded noneDeleted keys
      (Pending.ext additions modifications deletions), rfl, fun mirrors => ?_⟩
  obtain ⟨zone, found, mirrored⟩ := mirrors.zones name₀ (by decide)
  have stale : servers₀.lord.lookup (zoneId name₀)
      = some (Finmap.insert (zoneKey name₀ item₀) rrset₀ ∅) := Finmap.lookup_insert _
  obtain rfl := Option.some.inj (stale.symm.trans found)
  have shownStale := mirrored.regular item₀ (by decide)
  rw [Finmap.lookup_insert] at shownStale
  exact absurd shownStale (by decide)

end Recreation

end DesecStack.Changes.Mirror
