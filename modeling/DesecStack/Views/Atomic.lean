/- module: DesecStack/Views/Atomic
   layer: main results
   digest: Bulk requests do all that is asked for, in the database and in PowerDNS, or nothing. -/

import DesecStack.Changes.Mirror
import DesecStack.Records.Applied
import DesecStack.Records.Traces
import DesecStack.Views.Bulk
import DesecStack.Views.Enforced

set_option autoImplicit false
set_option relaxedAutoImplicit false

namespace DesecStack.Views.Atomic

open Library.PyText
open Library.Runs (bind_eq_ok_iff)
open Library.SetOrder (mem_visit_iff visit_empty visit_singleton)
open Changes.Models
open Changes.History
open Changes.Tracker
open Changes.Pdns
open Changes.Compute
open Changes.Execution
open Changes.Mirror
open Records.Fields
open Records.Serializer (Attrs)
open Records.Save (Session Env)
open Records.ListSerializer (shape)
open Records.Rows (Entries)
open Records.Accepted
open Records.Applied
open Records.Traces
open Records.BulkExact (Method bulkRequest storedItem)
open Writes
open Bulk

section Changes

variable {unicode : Unicode} {base start db : Database} {name : Text} {signals : List Signal}
  {t : PDNSChangeTracker} (told : Told unicode start signals db)
  (tracked : Tracked unicode start db signals t)
  (telling : ∀ signal ∈ signals, Telling base name signal)
include told telling

omit tracked in
private theorem present_iff (d : Text) : (db.lookup d).isSome = (start.lookup d).isSome := by
  have said := told.presence d
  rw [presences_of_telling telling, List.foldl_nil] at said
  cases before : (start.lookup d).isSome <;> cases after : (db.lookup d).isSome <;>
    simp_all [Library.Journal.Flip.clean, Library.Journal.Flip.between]

include tracked

private theorem domainAdditions_eq : t.domainAdditions = ∅ := by
  refine Finset.eq_empty_of_forall_notMem fun d added => ?_
  obtain ⟨here, absent⟩ := (mem_domainAdditions tracked d).mp added
  rw [present_iff told telling, absent] at here
  exact absurd here (by simp)

private theorem domainDeletions_eq : t.domainDeletions = ∅ := by
  refine Finset.eq_empty_of_forall_notMem fun d deleted => ?_
  obtain ⟨there, gone⟩ := (mem_domainDeletions tracked d).mp deleted
  rw [present_iff told telling, there] at gone
  exact absurd gone (by simp)

private theorem pending_eq {d : Text} (other : d ≠ name) : pending t d = ⟨∅, ∅, ∅⟩ := by
  have silent (item : Item) := events_of_telling telling other item
  have same (item : Item) : value db d item = value start d item :=
    (told.life d item).of_nil (silent item)
  have agrees (item : Item) := tracked.agrees d item
  refine Pending.ext ?_ ?_ ?_ <;> refine Finset.eq_empty_of_forall_notMem fun item member => ?_
  · have created := ((agrees item).added_present (by simpa [mark, Pending.mark] using member)).2
    rw [silent] at created
    exact absurd created (by simp)
  · have last := (agrees item).last_modified.mp (by simpa [mark, Pending.mark] using member)
    rw [silent] at last
    exact absurd last (by simp)
  · obtain ⟨gone, there, -⟩ :=
      (agrees item).deleted_absent (by simpa [mark, Pending.mark] using member)
    rw [same item] at gone
    simp [gone] at there

private theorem changes_of_telling {orders : Orders} {changes : List PDNSChange}
    (computed : computeChanges orders t db = some changes) :
    changes = [] ∨
      changes = [.createUpdateDeleteRRSets name (announce db name (pending t name))] := by
  have added := domainAdditions_eq told tracked telling
  have deleted := domainDeletions_eq told tracked telling
  have nothing {d : Text} (other : d ≠ name) : changesOf t db d = some [] := by
    simp [changesOf, added, announce, pending_eq told tracked telling other]
  simp only [computeChanges, discardDeleted, deleted, visit_empty, List.foldl_nil, List.map_nil,
    List.nil_append, Option.bind_eq_bind, Option.bind_eq_some_iff, Option.pure_def,
    Option.some.injEq] at computed
  obtain ⟨later, each, rfl⟩ := computed
  rcases Library.Runs.flatten_of_single (a := name) (orders.names.nodup _)
    (fun d _ other => nothing other) each with none | own
  · exact Or.inl none
  · simp only [changesOf, added, Finset.notMem_empty, if_false,
      Option.ite_none_right_eq_some] at own
    obtain ⟨-, own⟩ := own
    split at own
    · exact Or.inl (Option.some.inj own).symm
    · exact Or.inr (Option.some.inj own).symm

end Changes

section Exit

variable {site : Site} {faults : Faults}

/-- A loop that comes to its end has executed every change. -/
theorem foldlM_of_runChanges {changes : List PDNSChange} :
    ∀ {progress after : Progress}, runChanges site faults changes progress = (after, true) →
      changes.foldlM (execute site.unicode site.settings faults.accepts site.orders) progress
        = some after := by
  induction changes with
  | nil =>
    intro progress after done
    simp only [runChanges, Prod.mk.injEq, and_true] at done
    rw [List.foldlM_nil, done]
    rfl
  | cons change rest ih =>
    intro progress after done
    rw [runChanges] at done
    split at done
    · exact absurd done (by simp)
    · next next executed =>
      rw [List.foldlM_cons, executed]
      exact ih done

private theorem stays_of_runChanges {changes : List PDNSChange} {name : Text} {p : Pending}
    {progress after : Progress}
    (single : changes = [] ∨ changes = [.createUpdateDeleteRRSets name p])
    (failed : runChanges site faults changes progress = (after, false)) : after = progress := by
  rcases single with rfl | rfl
  · exact absurd failed (by simp [runChanges])
  · rw [runChanges] at failed
    split at failed
    · exact (Prod.mk.inj failed).1.symm
    · exact absurd failed (by simp [runChanges])

theorem lord_of_transfers {names : List Text} :
    ∀ servers, (transfers site faults names servers).1.lord = servers.lord := by
  induction names with
  | nil => exact fun _ => rfl
  | cons name rest ih =>
    intro servers
    rw [transfers]
    split
    · rfl
    · next next done =>
      simp only [transfer, Option.bind_eq_bind, Option.bind_eq_some_iff] at done
      obtain ⟨id, -, sent⟩ := done
      have handled := handle_of_send sent
      simp only [Changes.Pdns.handle, Option.ite_none_left_eq_some, Option.map_eq_some_iff]
        at handled
      obtain ⟨-, zone, -, same⟩ := handled
      rw [ih, ← same]

private theorem execute_isSome {name : Text} {start : Database} {signals : List Signal}
    {t : PDNSChangeTracker} {progress : Progress} {id : Text} {zone : Zone}
    (tracked : Tracked site.unicode start progress.db signals t)
    (accepting : ∀ servers request, faults.accepts servers request = true)
    (path : pdnsId name = some id) (found : progress.servers.lord.lookup id = some zone) :
    (execute site.unicode site.settings faults.accepts site.orders progress
      (.createUpdateDeleteRRSets name (announce progress.db name (pending t name)))).isSome := by
  have there {item : Item} (member : item ∈ site.orders.items.visit
      (((announce progress.db name (pending t name)).additions ∪
        (announce progress.db name (pending t name)).modifications) \
          (announce progress.db name (pending t name)).deletions)) :
      (replacement progress.db name item).isSome := by
    have agrees := tracked.agrees name item
    simp only [mem_visit_iff, Finset.mem_sdiff, Finset.mem_union, announce,
      Finset.mem_filter] at member
    rw [replacement, Option.isSome_map]
    rcases member.1 with ⟨added, -⟩ | modified
    · exact (agrees.added_present (by simpa [mark, Pending.mark] using added)).1
    · exact agrees.modified_present (by simpa [mark, Pending.mark] using modified)
  obtain ⟨replaced, read⟩ := Option.isSome_iff_exists.mp
    (Library.Runs.mapM_isSome fun _ member => there member)
  have pdns : (pdnsDo site.settings faults.accepts site.orders progress.db progress.servers
      (.createUpdateDeleteRRSets name (announce progress.db name (pending t name)))).isSome := by
    simp only [pdnsDo, rrsetData, read, Option.bind_eq_bind, Option.bind_some, Option.pure_def]
    split
    · rfl
    · simp [path, send, accepting, Changes.Pdns.handle, found]
  obtain ⟨servers, sent⟩ := Option.isSome_iff_exists.mp pdns
  by_cases api : site.settings.pchApi = true <;> simp [execute, sent, apiDo, pchDo, api]

theorem stays_of_exit_of_telling {base : Database} {name : Text} {before after : System}
    {session : Session} {refusal : Refusal}
    (told : Told site.unicode before.db session.sent session.db)
    (telling : ∀ signal ∈ session.sent, Telling base name signal)
    (refused : exit site faults before session = (.refused refusal, after)) : after = before := by
  obtain ⟨t, received, tracked⟩ := tracked_of_told told
  rw [exit, received] at refused
  dsimp only at refused
  split at refused
  · exact (Prod.mk.inj refused).2.symm
  · next changes computed =>
    split at computed
    · exact absurd computed (by simp)
    · have single := changes_of_telling told tracked telling computed
      split at refused
      · next progress failed =>
        rw [← (Prod.mk.inj refused).2, stays_of_runChanges single failed]
      · exact absurd refused (by simp)

variable {name : Text} {before : System} {session : Session}
  (traced : Traced (envOf site name) (Fresh before.db name) ⟨before.db, []⟩ session)
  (named : Named site.unicode before.db)
include traced named

theorem told_of_traced : Told site.unicode before.db session.sent session.db ∧
    ∀ signal ∈ session.sent, Telling before.db name signal := by
  obtain ⟨operations, sent, fresh, performed, isSent⟩ := traced
  rw [List.nil_append] at isSent
  rw [isSent]
  refine ⟨?_, telling_of_performAll fresh performed⟩
  simpa using told_of_performAll operations (told_start named) performed

private theorem stays_of_exit {refusal : Refusal} {after : System}
    (refused : exit site faults before session = (.refused refusal, after)) : after = before := by
  obtain ⟨told, telling⟩ := told_of_traced traced named
  exact stays_of_exit_of_telling told telling refused

private theorem mirrors_of_exit {zone : Zone} {published : Bool} {after : System}
    (present : (before.db.lookup name).isSome)
    (found : before.servers.lord.lookup (zoneId name) = some zone)
    (mirrored : ZoneMirrors before.db name zone)
    (committed : exit site faults before session = (.committed published, after)) :
    (∀ item, value after.db name item = value session.db name item) ∧
      ∃ zone', after.servers.lord.lookup (zoneId name) = some zone' ∧
        ZoneMirrors after.db name zone' := by
  obtain ⟨told, telling⟩ := told_of_traced traced named
  obtain ⟨t, received, tracked⟩ := tracked_of_told told
  rw [exit, received] at committed
  dsimp only at committed
  split at committed
  · exact absurd committed (by simp)
  · next changes computed =>
    split at computed
    · exact absurd computed (by simp)
    · split at committed
      · exact absurd committed (by simp)
      · next progress done =>
        have executed := executed_of_executeAll tracked named told.named computed
          (foldlM_of_runChanges done)
        have old : name ∉ t.domainAdditions := by
          simp [domainAdditions_eq told tracked telling]
        have outcome := executed.kept name (named name (Finmap.lookup_isSome.mp present))
          (by simp [domainDeletions_eq told tracked telling])
        obtain ⟨zone', there, mirrors⟩ :=
          (zoneMirrors_kept_iff tracked old outcome found mirrored).mpr fun item _ shows created =>
            by simp [new_of_telling telling created, Library.Journal.shown] at shows
        obtain rfl := (Prod.mk.inj committed).2
        refine ⟨fun item => ?_, zone', ?_, mirrors⟩
        · rw [outcome.values, if_neg fun h => old h.1]
        · rw [lord_of_transfers]
          exact there

private theorem committed_of_exit {zone : Zone} {id : Text} (computing : faults.computing = false)
    (accepting : ∀ servers request, faults.accepts servers request = true)
    (path : pdnsId name = some id) (found : before.servers.lord.lookup id = some zone) :
    ∃ published after, exit site faults before session = (.committed published, after) := by
  obtain ⟨told, telling⟩ := told_of_traced traced named
  obtain ⟨t, received, tracked⟩ := tracked_of_told told
  obtain ⟨changes, computed⟩ :=
    Option.isSome_iff_exists.mp (computeChanges_isSome tracked site.orders)
  have ran : ∃ progress, runChanges site faults changes ⟨session.db, before.servers, ∅⟩
      = (progress, true) := by
    rcases changes_of_telling told tracked telling computed with rfl | rfl
    · exact ⟨_, rfl⟩
    · have runs : (execute site.unicode site.settings faults.accepts site.orders
          ⟨session.db, before.servers, ∅⟩ (.createUpdateDeleteRRSets name
            (announce session.db name (pending t name)))).isSome :=
        execute_isSome tracked accepting path found
      obtain ⟨next, executed⟩ := Option.isSome_iff_exists.mp runs
      exact ⟨next, by rw [runChanges, executed]; rfl⟩
  obtain ⟨progress, ran⟩ := ran
  exact ⟨_, _, by
    simp only [exit, received, computing, Bool.false_eq_true, if_false, computed, ran]; rfl⟩

end Exit

section Request

variable (site : Site) (faults : Faults) (caller : Caller) (system : System)
  (request : BulkRequest)

/-- The list serializer of a request that is allowed. -/
def serializer (db : Database) (request : BulkRequest) :
    Except Refusal Records.ListSerializer.Request := do
  let rrsets ← rrsetView caller db request.name
  let selected ← selection rrsets request
  .ok (bulkRequest request.method (contextOf site caller request.name rrsets
    (site.minimumTtl request.name) (request.method = .post) none) selected)

/-- A request that ends in an error leaves the database and PowerDNS as they were. One that gets
past the commit has applied every row to the database, which the zone in nslord mirrors. -/
structure AllOrNothing : Prop where
  nothing (refusal : Refusal) (after : System)
    (refused : bulk site faults caller system request = (.refused refusal, after)) :
    after = system
  all (published : Bool) (after : System)
    (committed : bulk site faults caller system request = (.committed published, after)) :
    ∃ list, serializer site caller system.db request = .ok list ∧
      (∀ row ∈ request.rows, ∃ data, shape row = .ok data ∧
        Asks (envOf site request.name) (storedItem data) (validated list data)
          (value system.db request.name (storedItem data))
          (value after.db request.name (storedItem data))) ∧
      ∃ zone, after.servers.lord.lookup (zoneId request.name) = some zone ∧
        ZoneMirrors after.db request.name zone

/-- The request gets past the commit. -/
def Commits : Prop :=
  ∃ published after, bulk site faults caller system request = (.committed published, after)

/-- The rows are consistent, as the serializer of the request reads them. -/
def ConsistentRows (db : Database) : Prop :=
  ∀ list, serializer site caller db request = .ok list →
    Consistent (envOf site request.name) list db request.rows

variable {site faults caller system request}

private theorem parts_of_body {db : Database} {session : Session}
    (done : body site faults caller db request = .ok session) :
    ∃ ctx selected, serializer site caller db request
      = .ok (bulkRequest request.method ctx selected) ∧
      Records.BulkExact.Agrees (envOf site request.name) ctx ⟨db, []⟩ ∧
      selected ⊆ ctx.rrsets.keys ∧ Valid (bulkRequest request.method ctx selected) request.rows ∧
      Checked (bulkRequest request.method ctx selected) request.rows ∧
      Records.BulkExact.save (envOf site request.name) request.method ⟨db, []⟩ selected
        ((entries request.rows).map (validated (bulkRequest request.method ctx selected)))
          = .ok session := by
  simp only [body, bind_eq_ok_iff] at done
  obtain ⟨rrsets, view, selected, chosen, saving⟩ := done
  have chosenByPost : selected ⊆ rrsets.keys := by
    unfold selection at chosen
    split at chosen
    · rw [← Except.ok.inj chosen]
      exact Finset.empty_subset _
    · exact subset_of_queryset chosen
  unfold Bulk.saveMany at saving
  split at saving
  · exact absurd saving (by simp)
  · next result accepted =>
    obtain ⟨valid, checked, rfl⟩ := toInternalValue_ok_iff.mp accepted
    refine ⟨_, selected, ?_, ⟨rfl, lookup_of_rrsetView view⟩, chosenByPost, valid, checked, ?_⟩
    · simp [serializer, view, chosen, bind, Except.bind]
    · unfold saved at saving
      split at saving
      · exact absurd saving (by simp)
      · next whole =>
        obtain rfl := Except.ok.inj saving
        exact (Records.Faults.save_orFails ..).ok whole

private theorem forall_rows_iff {list : Records.ListSerializer.Request} {rows : List Json}
    (valid : Valid list rows) {P : Entries → Prop} :
    (∀ row ∈ rows, ∃ data, shape row = .ok data ∧ P data) ↔ ∀ data ∈ entries rows, P data := by
  constructor
  · intro all data member
    obtain ⟨row, there, shaped⟩ := List.mem_filterMap.mp member
    obtain ⟨other, isOther, holds⟩ := all row there
    rw [isOther] at shaped
    exact Option.some.inj shaped ▸ holds
  · intro all row member
    obtain ⟨data, attrs, shaped, -⟩ := valid row member
    refine ⟨data, shaped, all data (List.mem_filterMap.mpr ⟨row, member, ?_⟩)⟩
    rw [shaped]
    rfl

variable (named : Named site.unicode system.db)
include named

/-- A request that is refused leaves everything as it was. -/
theorem stays_of_bulk {refusal : Refusal} {after : System}
    (refused : bulk site faults caller system request = (.refused refusal, after)) :
    after = system := by
  unfold bulk at refused
  split at refused
  · exact (Prod.mk.inj refused).2.symm
  · next session done =>
    obtain ⟨ctx, selected, -, -, -, -, -, saving⟩ := parts_of_body done
    exact stays_of_exit (traced_of_save saving) named refused

/-- A request that is committed leaves nslord a mirror of the database, which has what the rows
ask for if they are consistent. -/
theorem applied_of_bulk (mirrors : Mirrors system.db system.servers) {published : Bool}
    {after : System}
    (committed : bulk site faults caller system request = (.committed published, after)) :
    ∃ list, serializer site caller system.db request = .ok list ∧
      ((∀ row ∈ request.rows, ∃ data, shape row = .ok data ∧
        Asks (envOf site request.name) (storedItem data) (validated list data)
          (value system.db request.name (storedItem data))
          (value after.db request.name (storedItem data))) ↔
        Consistent (envOf site request.name) list system.db request.rows) ∧
      ∃ zone, after.servers.lord.lookup (zoneId request.name) = some zone ∧
        ZoneMirrors after.db request.name zone := by
  unfold bulk at committed
  split at committed
  · exact absurd committed (by simp)
  · next session done =>
    obtain ⟨ctx, selected, isList, agrees, selectable, valid, checked, saving⟩ := parts_of_body done
    have present : (system.db.lookup request.name).isSome := by
      rw [show system.db.lookup request.name = some ctx.rrsets from agrees.stored]
      rfl
    obtain ⟨zone, found, mirrored⟩ := mirrors.zones request.name present
    obtain ⟨values, mirror⟩ :=
      mirrors_of_exit (traced_of_save saving) named present found mirrored committed
    refine ⟨_, isList, ?_, mirror⟩
    rw [forall_rows_iff valid]
    simp only [values]
    exact asks_iff_consistent agrees selectable valid checked saving

private theorem commits_of_body {zone : Zone} {id : Text} (computing : faults.computing = false)
    (accepting : ∀ servers request, faults.accepts servers request = true)
    (path : pdnsId request.name = some id)
    (found : system.servers.lord.lookup id = some zone) {session : Session}
    (done : body site faults caller system.db request = .ok session) :
    Commits site faults caller system request := by
  obtain ⟨ctx, selected, -, -, -, -, -, saving⟩ := parts_of_body done
  obtain ⟨published, after, committed⟩ :=
    committed_of_exit (traced_of_save saving) named computing accepting path found
  exact ⟨published, after, by rw [bulk, done]; exact committed⟩

end Request

/-- Bulk requests are all-or-nothing exactly if the rows of those that are committed are
consistent. -/
theorem allOrNothing_iff (site : Site) (faults : Faults) (caller : Caller) (system : System)
    (request : BulkRequest) (named : Named site.unicode system.db)
    (mirrors : Mirrors system.db system.servers) :
    AllOrNothing site faults caller system request ↔
      (Commits site faults caller system request →
        ConsistentRows site caller request system.db) := by
  constructor
  · rintro ⟨-, all⟩ ⟨published, after, committed⟩ list isList
    obtain ⟨other, isOther, iff, -⟩ := applied_of_bulk named mirrors committed
    obtain ⟨third, isThird, asks, -⟩ := all published after committed
    obtain rfl := Except.ok.inj (isOther.symm.trans isList)
    obtain rfl := Except.ok.inj (isOther.symm.trans isThird)
    exact iff.mp asks
  · intro consistent
    refine ⟨fun refusal after refused => stays_of_bulk named refused,
      fun published after committed => ?_⟩
    obtain ⟨list, isList, iff, zone⟩ := applied_of_bulk named mirrors committed
    exact ⟨list, isList, iff.mpr (consistent ⟨published, after, committed⟩ list isList), zone⟩

section Sample

private noncomputable def site₂ : Site where
  unicode := .plain
  dns := ⟨{"A".toList}, fun content _ => .ok content, fun _ content => content, fun _ _ => false⟩
  settings := ⟨["ns1.example.".toList], 3600, "catalog.internal.".toList, false, id⟩
  orders := orders₀
  contents := default
  minimumTtl _ := 60
  minimumTtlDefault := 60
  isLocallyRegistrable _ := false
  blockedSubnet _ := false
  isValidName _ := true
  registerLps := true
  parseZonefile _ _ := .ok []
  leaves _ := true

private def caller₂ : Caller where
  token := ⟨1, 1, none, none, false, false, false, false⟩
  policies := []
  mfaEnabled := false
  domains := {name₀}
  limitDomains := none

private def row₂ (subname content : String) : Json :=
  .dict [("subname".toList, .str subname.toList), ("type".toList, .str "A".toList),
    ("ttl".toList, .int 3600), ("records".toList, .list [.str content.toList])]

private def request₂ (rows : List Json) : BulkRequest := ⟨.patch, name₀, ⟨none, none⟩, rows⟩

private def system₂ : System := ⟨start₀, servers₀⟩

private noncomputable def faults₂ : Faults := noFaults fun _ _ => true

private def item₂ : Item := ("A".toList, "api".toList)

/-- A request with one row is all-or-nothing. -/
theorem allOrNothing_single :
    AllOrNothing site₂ faults₂ caller₂ system₂ (request₂ [row₂ "api" "192.0.2.1"]) := by
  refine (allOrNothing_iff site₂ faults₂ caller₂ system₂ (request₂ [row₂ "api" "192.0.2.1"])
    named_start₀ mirrors_start₀).mpr fun _ list isList => ?_
  have only {data : Entries} (member : data ∈ entries [row₂ "api" "192.0.2.1"]) :
      data = [("subname".toList, .str "api".toList), ("type".toList, .str "A".toList),
        ("ttl".toList, .int 3600), ("records".toList, .list [.str "192.0.2.1".toList])] :=
    List.mem_singleton.mp member
  refine ⟨fun a b first second same new => ?_, fun data member old found nonempty given => ?_⟩
  · obtain rfl := (only first).trans (only second).symm
    exact ⟨rfl, fun _ => ⟨rfl, rfl⟩⟩
  · obtain rfl := only member
    have absent : value start₀ name₀ item₂ = none := by decide
    exact absurd (absent.symm.trans found) (by simp)

private def rows₂ : List Json := [row₂ "api" "192.0.2.1", row₂ " api" "192.0.2.2"]

private def attrs₂ (content : String) : Attrs :=
  ⟨some item₂.2, some [content.toList], some 3600, some item₂.1⟩

private noncomputable def list₂ : Records.ListSerializer.Request :=
  bulkRequest .patch (contextOf site₂ caller₂ name₀ (Finmap.insert item₀ rrset₀ ∅) 60 false none)
    {item₀}

private theorem serializer₂ :
    serializer site₂ caller₂ start₀ (request₂ rows₂) = .ok list₂ := rfl

private theorem saved₂ : ∃ session, Records.Faults.save faults₂.fails (envOf site₂ name₀) .patch
    ⟨start₀, []⟩ {item₀} [attrs₂ "192.0.2.1", attrs₂ "192.0.2.2"] = .ok session := by
  have onlyNew : Records.Writes.created {item₀} [attrs₂ "192.0.2.1", attrs₂ "192.0.2.2"]
      = {item₂} := by decide
  have noneGone : Records.Writes.deleted {item₀} [attrs₂ "192.0.2.1", attrs₂ "192.0.2.2"]
      = ∅ := by decide
  have noneOld : Records.Values.updatedItems {item₀} [attrs₂ "192.0.2.1", attrs₂ "192.0.2.2"]
      = ∅ := by decide
  have free : ¬ Records.Writes.Blocks (Records.Writes.items (envOf site₂ name₀) ⟨start₀, []⟩)
      item₂ := by
    unfold Records.Writes.Blocks
    decide
  have complete : Records.Writes.Complete (envOf site₂ name₀) item₂ (attrs₂ "192.0.2.2") :=
    ⟨["192.0.2.2".toList], 3600, rfl, rfl, by decide⟩
  have fits : Records.Writes.Fits (envOf site₂ name₀) item₂ (attrs₂ "192.0.2.2") :=
    ⟨{"192.0.2.2".toList}, rfl⟩
  obtain ⟨session, created, -⟩ := Records.Writes.create_of_fits complete free
    (show (start₀.lookup name₀).isSome by decide) fits
  refine ⟨session, ?_⟩
  rw [show faults₂.fails = fun _ _ => false from rfl, Records.Faults.save_noFails]
  change ((envOf site₂ name₀).items.visit (Records.Writes.deleted _ _)).foldlM _ _
    >>= (fun middle =>
    ((envOf site₂ name₀).items.visit (Records.Writes.created _ _)).foldlM _ middle >>= fun next =>
      ((envOf site₂ name₀).items.visit (Records.Values.updatedItems _ _)).foldlM _ next) = _
  rw [onlyNew, noneGone, noneOld]
  simp only [visit_empty, visit_singleton, List.foldlM_nil, List.foldlM_cons]
  exact (bind_pure _).trans ((bind_pure _).trans created)

/-- A blank before a subname hides that two rows are for one RRset; the first one is lost. -/
theorem padded_row_lost : Named site₂.unicode system₂.db ∧ Mirrors system₂.db system₂.servers ∧
    ¬ AllOrNothing site₂ faults₂ caller₂ system₂ (request₂ rows₂) := by
  refine ⟨named_start₀, mirrors_start₀, fun atomic => ?_⟩
  obtain ⟨session, saving⟩ := saved₂
  have done : body site₂ faults₂ caller₂ system₂.db (request₂ rows₂) = .ok session := by
    change saved (Records.Faults.save faults₂.fails (envOf site₂ name₀) .patch ⟨start₀, []⟩ {item₀}
      [attrs₂ "192.0.2.1", attrs₂ "192.0.2.2"]) = .ok session
    rw [saving]
    rfl
  have path : pdnsId name₀ = some (zoneId name₀) := by decide
  obtain ⟨published, after, committed⟩ := commits_of_body named_start₀ rfl (fun _ _ => rfl) path
    (Finmap.lookup_insert _) done
  obtain ⟨list, isList, asks, -⟩ := atomic.all published after committed
  obtain rfl := Except.ok.inj (serializer₂.symm.trans isList)
  obtain ⟨one, shapedOne, first⟩ := asks (row₂ "api" "192.0.2.1") (by simp [request₂, rows₂])
  obtain ⟨two, shapedTwo, second⟩ := asks (row₂ " api" "192.0.2.2") (by simp [request₂, rows₂])
  obtain rfl := Except.ok.inj shapedOne
  obtain rfl := Except.ok.inj shapedTwo
  have same : Same (envOf site₂ name₀) item₂ (attrs₂ "192.0.2.1") (attrs₂ "192.0.2.2") :=
    same_of_asks first second
  exact absurd (same.2 rfl).1 (by decide)

end Sample

end DesecStack.Views.Atomic
