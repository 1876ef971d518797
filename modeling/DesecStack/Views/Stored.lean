/- module: DesecStack/Views/Stored
   layer: main results
   digest: Every RRset that requests can store is well formed, and keeps its type and subname. -/

import DesecStack.Records.Canonical
import DesecStack.Records.Child
import DesecStack.Records.Values
import DesecStack.Views.Enforced

set_option autoImplicit false
set_option relaxedAutoImplicit false

namespace DesecStack.Views.Stored

open Library.PyText
open Library.Runs (bind_eq_ok_iff)
open Changes.Models
open Changes.Compute (nsItem sortedOrders)
open Records.Fields
open Records.Serializer
open Records.ListSerializer (knownInstance keyOfRow)
open Records.Save
open Records.Rows (Entries)
open Records.Validated
open Records.Child
open Records.Accepted
open Records.Frames
open Records.Values
open Records.Writes (keys emptied dataOf)
open Records.Canonical
open Records.BulkExact (Method bulkRequest save storedItem validRow_of_mem keyOf_validated
  isEmpty_validated)
open Enforced
open Writes

/-- A well-formed RRset. Its contents are distinct, as they are a set. -/
structure WellFormed (dns : Dns) (dnspython : Dnspython) (item : Item) (rrset : RRset) : Prop where
  nonempty : rrset.records.Nonempty
  single (singleton : item.1 = cname ∨ item.1 = dname) : rrset.records.card = 1
  belowApex (below : item.1 = cname ∨ item.1 = ds) : item.2 ≠ []
  atApex (apex : item.1 = dnskey) : item.2 = []
  manageable : typesManageable dns item.1 = true
  canonical (content : Text) (member : content ∈ rrset.records) :
    canonicalPresentationFormat dnspython content item.1 = .ok content
  short (content : Text) (member : content ∈ rrset.records) :
    ShortWire dnspython item.1 content

/-- Canonical forms are those of dnspython, which keeps its own results. -/
structure Canonicalises (dns : Dns) (dnspython : Dnspython) : Prop where
  canonical : dns.canonical = canonicalPresentationFormat dnspython
  idempotent (content type text : Text)
    (done : canonicalPresentationFormat dnspython content type = .ok text) :
    canonicalPresentationFormat dnspython text type = .ok text

/-- Every RRset of a domain is well formed. -/
def AllWellFormed (dns : Dns) (dnspython : Dnspython) (name : Text) (db : Database) : Prop :=
  ∀ item rrset, value db name item = some rrset → WellFormed dns dnspython item rrset

section Values

variable {dns : Dns} {dnspython : Dnspython} (forms : Canonicalises dns dnspython) {env : Env}
  (sameDns : env.dns = dns) {item : Item} {attrs : Attrs}
include forms sameDns

private theorem wellFormed_of_cleaned {records : List Text} {rrset : RRset}
    (manageable : typesManageable dns item.1 = true) (given : records ≠ [])
    (cleaned : Cleaned env item records rrset.records) : WellFormed dns dnspython item rrset := by
  have positive : 0 < records.length := List.length_pos_iff.mpr given
  have canonical : ∀ content ∈ rrset.records,
      canonicalPresentationFormat dnspython content item.1 = .ok content := by
    intro content member
    obtain ⟨record, -, form⟩ := cleaned.canonical content member
    rw [sameDns, forms.canonical] at form
    exact forms.idempotent record item.1 content form
  have count := cleaned.count
  refine ⟨?_, fun singleton => ?_, cleaned.belowApex, cleaned.atApex, manageable, canonical,
    fun content member => shortWire_of_canonical (canonical content member)⟩
  · rw [← Finset.card_pos]
    omega
  · have single := cleaned.single singleton
    omega

private theorem wellFormed_of_created (manageable : typesManageable dns item.1 = true)
    (given : attrs.records ≠ some []) {rrset : RRset}
    (created : Created env item attrs (some rrset)) : WellFormed dns dnspython item rrset := by
  obtain ⟨records, ttl, new, isRecords, -, -, clean, same⟩ := created
  obtain rfl := Option.some.inj same
  refine wellFormed_of_cleaned forms sameDns manageable ?_ (cleaned_of_cleanRecords clean)
  rintro rfl
  exact given isRecords

private theorem wellFormed_of_updated {old rrset : RRset}
    (before : WellFormed dns dnspython item old)
    (given : attrs.records ≠ some []) (updated : Updated env item attrs old (some rrset)) :
    WellFormed dns dnspython item rrset := by
  obtain ⟨new, replaced, kept, same⟩ := updated
  obtain rfl := Option.some.inj same
  cases isRecords : attrs.records with
  | none =>
    obtain rfl := kept isRecords
    exact { before with }
  | some records =>
    refine wellFormed_of_cleaned forms sameDns before.manageable ?_
      (cleaned_of_cleanRecords (replaced records isRecords))
    rintro rfl
    exact given isRecords

end Values

private theorem sameDns_envOf (site : Site) (d : Text) : (envOf site d).dns = site.dns := rfl

section Requests

variable {site : Site} {caller : Caller} {db db' : Database} {name : Text} {dnspython : Dnspython}
  (forms : Canonicalises site.dns dnspython)
include forms

omit forms in
theorem manageable_of_valid {ctx : Context} {method : Method} {selected : Finset Item}
    {rows : List Json} (valid : Valid (bulkRequest method ctx selected) rows) {attrs : Attrs}
    (member : attrs ∈ (entries rows).map (validated (bulkRequest method ctx selected))) :
    typesManageable ctx.dns (keyOf attrs).1 = true ∧
      (method = .post → attrs.records ≠ some []) := by
  obtain ⟨entry, there, rfl⟩ := List.mem_map.mp member
  have row := validRow_of_mem rfl valid there
  obtain ⟨-, -, -, done⟩ := valid.of_mem there
  have child : ValidChild (bulkRequest method ctx selected).ctx _ _ :=
    validChild_of_runValidation done
  rw [keyOf_validated rfl valid there]
  refine ⟨child.manageable _ row.type, fun post => ?_⟩
  exact child.nonempty (by simp [bulkRequest, post])

private theorem wellFormed_of_listUpdate {env : Env} (sameDns : env.dns = site.dns)
    {session session' : Session} {queryset : Finset Item} {result : List Attrs}
    (manageable : ∀ attrs ∈ result, typesManageable site.dns (keyOf attrs).1 = true)
    (known : ∀ item ∈ queryset, (value session.db env.name item).isSome)
    (done : listUpdate env session queryset result = .ok session')
    (before : AllWellFormed site.dns dnspython env.name session.db) :
    AllWellFormed site.dns dnspython env.name session'.db := by
  intro item rrset found
  by_cases member : item ∈ Records.Writes.keys result
  · have listed := listed_of_listUpdate done member
    obtain ⟨attrs, there, isKey, isData⟩ := data_of_keys member
    have notEmpty (nonempty : item ∉ emptied result) : attrs.records ≠ some [] := by
      intro empty
      refine nonempty (List.mem_toFinset.mpr (List.mem_map.mpr ⟨attrs, ?_, isKey⟩))
      exact List.mem_filter.mpr ⟨there, by simp [isEmpty, empty]⟩
    by_cases selected : item ∈ queryset <;> by_cases empty : item ∈ emptied result
    · rw [listed.deleted selected empty] at found
      exact absurd found (by simp)
    · obtain ⟨old, stored⟩ := Option.isSome_iff_exists.mp (known item selected)
      have updated := listed.updated selected empty old stored
      rw [found, isData] at updated
      exact wellFormed_of_updated forms sameDns (before item old stored) (notEmpty empty) updated
    · rw [listed.skipped selected empty] at found
      exact before item rrset found
    · obtain ⟨-, created⟩ := listed.created selected empty
      rw [found, isData] at created
      exact wellFormed_of_created forms sameDns (isKey ▸ manageable attrs there) (notEmpty empty)
        created
  · have confined : Confined env.name (· ∈ Records.Writes.keys result) session.db session'.db :=
      confined_of_listUpdate (fun attrs there =>
        List.mem_toFinset.mpr (List.mem_map_of_mem there)) done
    rw [confined.value_eq member] at found
    exact before item rrset found

private theorem wellFormed_of_listCreate {env : Env} (sameDns : env.dns = site.dns)
    {session session' : Session} {result : List Attrs}
    (manageable : ∀ attrs ∈ result, typesManageable site.dns (keyOf attrs).1 = true)
    (nonempty : ∀ attrs ∈ result, attrs.records ≠ some [])
    (done : listCreate env session result = .ok session')
    (before : AllWellFormed site.dns dnspython env.name session.db) :
    AllWellFormed site.dns dnspython env.name session'.db := by
  intro item rrset found
  by_cases member : item ∈ result.map keyOf
  · obtain ⟨attrs, there, rfl⟩ := List.mem_map.mp member
    have created := created_of_listCreate done attrs there
    rw [found] at created
    exact wellFormed_of_created forms sameDns (manageable attrs there)
      (nonempty attrs there) created
  · have confined : Confined env.name (· ∈ result.map keyOf) session.db session'.db :=
      confined_of_listCreate (fun attrs there => List.mem_map_of_mem there) done
    rw [confined.value_eq member] at found
    exact before item rrset found

omit forms in
private theorem wellFormed_of_confined {d : Text} {allowed : Item → Prop} {dns : Dns}
    {first second : Database} (other : d ≠ name) (confined : Confined d allowed first second)
    (before : AllWellFormed dns dnspython name first) :
    AllWellFormed dns dnspython name second := by
  intro item rrset found
  by_cases same : value second name item = value first name item
  · exact before item rrset (same ▸ found)
  · exact absurd (confined name item same).1.symm other

private theorem wellFormed_of_saveMany {d : Text} {ctx : Context} {method : Method}
    {selected : Finset Item} {session session' : Session} {data : Json}
    (sameDns : ctx.dns = site.dns) (stored : session.db.lookup d = some ctx.rrsets)
    (known : selected ⊆ ctx.rrsets.keys)
    (done : saveMany site d ctx method selected session data = .ok session')
    (before : AllWellFormed site.dns dnspython name session.db) :
    AllWellFormed site.dns dnspython name session'.db := by
  by_cases same : d = name
  · subst same
    obtain ⟨rows, -, valid, -, saving⟩ := rows_of_saveMany done
    have manageable : ∀ attrs ∈ (entries rows).map (validated (bulkRequest method ctx selected)),
        typesManageable site.dns (keyOf attrs).1 = true :=
      fun attrs there => sameDns ▸ (manageable_of_valid valid there).1
    have isKnown : ∀ item ∈ selected, (value session.db d item).isSome := by
      intro item member
      have inKeys := Finmap.mem_keys.mp (known member)
      simpa [value, stored, Finmap.lookup_isSome] using inKeys
    cases method with
    | post =>
      exact wellFormed_of_listCreate forms (sameDns_envOf site d) manageable
        (fun attrs there => (manageable_of_valid valid there).2 rfl) saving before
    | patch =>
      exact wellFormed_of_listUpdate forms (sameDns_envOf site d) manageable isKnown saving before
    | put =>
      exact wellFormed_of_listUpdate forms (sameDns_envOf site d) manageable isKnown saving before
  · obtain ⟨_, _, _, confined⟩ := spec_of_saveMany done
    exact wellFormed_of_confined same confined before

private theorem wellFormed_of_saveOne {d : Text} {ctx : Context} {isPartial : Bool}
    {instance? : Instance}
    {data : Json} (sameDns : ctx.dns = site.dns) (post : instance? = none → ctx.isPost = true)
    (stored : ∀ known, instance? = some known → value db d known.1 = some known.2)
    (done : saveOne site db d ctx isPartial instance? data = .ok db')
    (before : AllWellFormed site.dns dnspython name db) :
    AllWellFormed site.dns dnspython name db' := by
  unfold saveOne at done
  split at done
  · split at done
    · exact absurd done (by simp)
    · next entries attrs valid =>
      obtain ⟨session, single, rfl⟩ := db_of_committed done
      have saving := ok_of_saved single
      have child := validChild_of_runValidation valid
      have confined := confined_of_conditionalSave rfl saving
      by_cases same : d = name
      · subst same
        intro item rrset found
        by_cases own : item = (instance?.map Prod.fst).getD (keyOf attrs)
        · cases instance? with
          | none =>
            obtain ⟨type, given, -⟩ := child.typeOr_new
            have nonempty := child.nonempty (post rfl)
            have manageable : typesManageable site.dns item.1 = true := by
              rw [own, ← sameDns]
              simpa [keyOf, given] using child.manageable type given
            simp only [conditionalSave, isEmpty, decide_eq_false nonempty] at saving
            obtain ⟨-, created⟩ := created_of_create saving
            simp only [Option.map_none, Option.getD_none] at own
            rw [← own] at created
            change Created _ _ _ (value session.db d item) at created
            rw [found] at created
            exact wellFormed_of_created forms (sameDns_envOf site d) manageable nonempty created
          | some known =>
            simp only [Option.map_some, Option.getD_some] at own
            subst own
            have old := stored known rfl
            by_cases empty : attrs.records = some []
            · simp only [conditionalSave, isEmpty, decide_eq_true empty] at saving
              have gone := (value_of_delete saving).2
              change value session.db d known.1 = none at gone
              rw [gone] at found
              exact absurd found (by simp)
            · simp only [conditionalSave, isEmpty, decide_eq_false empty] at saving
              have updated : Updated (envOf site d) known.1 attrs known.2
                  (value session.db d known.1) := updated_of_update old saving
              rw [found] at updated
              exact wellFormed_of_updated forms (sameDns_envOf site d)
                (before known.1 known.2 old) empty updated
        · have kept := confined.value_eq own
          change value session.db d item = value db d item at kept
          rw [kept] at found
          exact before item rrset found
      · exact wellFormed_of_confined same confined before
  · exact absurd done (by simp)

/-- A request on the RRsets of an existing domain. -/
def isRRsetWrite : WriteRequest → Bool
  | .createDomain _ _ => false
  | .post _ _ | .update _ _ _ _ | .updateDetail _ _ _ _ | .destroyDetail _ _ | .dynDns _ _ _ => true

private theorem wellFormed_of_handle {request : WriteRequest}
    (onRRsets : isRRsetWrite request = true)
    (done : handle site caller db request = .ok db')
    (before : AllWellFormed site.dns dnspython name db) :
    AllWellFormed site.dns dnspython name db' := by
  cases request with
  | post d data =>
    simp only [handle, post, bind_eq_ok_iff] at done
    obtain ⟨rrsets, view, done⟩ := done
    split at done
    · obtain ⟨session, many, rfl⟩ := db_of_committed done
      exact wellFormed_of_saveMany forms rfl (lookup_of_rrsetView view) (Finset.empty_subset _) many
        before
    · exact wellFormed_of_saveOne forms rfl (fun _ => rfl) (by simp) done before
  | update isPartial d query data =>
    simp only [handle, updateMany, bind_eq_ok_iff] at done
    obtain ⟨rrsets, view, selected, chosen, done⟩ := done
    obtain ⟨session, many, rfl⟩ := db_of_committed done
    exact wellFormed_of_saveMany forms rfl (lookup_of_rrsetView view) (subset_of_queryset chosen)
      many before
  | updateDetail isPartial d item data =>
    simp only [handle, updateDetail, bind_eq_ok_iff] at done
    obtain ⟨rrsets, view, rrset, found, done⟩ := done
    refine wellFormed_of_saveOne forms rfl (by simp) ?_ done before
    rintro known same
    obtain rfl := Option.some.inj same
    unfold detailObject at found
    split at found
    · exact absurd found (by simp)
    · next stored =>
      split at found
      · simp [value, lookup_of_rrsetView view, stored, Except.ok.inj found]
      · exact absurd found (by simp)
  | destroyDetail d item =>
    simp only [handle, destroyDetail] at done
    split at done
    · obtain rfl := Except.ok.inj done
      exact before
    · simp only [bind_eq_ok_iff] at done
      obtain ⟨rrsets, -, rrset, -, done⟩ := done
      split at done
      · exact absurd done (by simp)
      · obtain ⟨session, deleted, rfl⟩ := db_of_committed done
        have deleting := ok_of_saved deleted
        have confined : Confined d (· = item) db session.db := confined_of_delete (by rfl) deleting
        by_cases same : d = name
        · subst same
          intro other rrset found
          by_cases own : other = item
          · have gone := (value_of_delete deleting).2
            change value session.db d item = none at gone
            rw [own, gone] at found
            exact absurd found (by simp)
          · rw [confined.value_eq own] at found
            exact before other rrset found
        · exact wellFormed_of_confined same confined before
  | dynDns d subnames rows =>
    simp only [handle, dynDnsSave, bind_eq_ok_iff] at done
    obtain ⟨rrsets, view, done⟩ := done
    obtain ⟨session, many, rfl⟩ := db_of_committed done
    exact wellFormed_of_saveMany forms rfl (lookup_of_domain view) (Finset.filter_subset _ _) many
      before
  | createDomain d zonefile => exact absurd onRRsets (by simp [isRRsetWrite])

end Requests

section Runs

/-- A request on the RRsets of an existing domain at some time, with the site as it is then; what
dnspython does stays the same. -/
structure Call (dns : Dns) where
  site : Site
  caller : Caller
  request : WriteRequest
  sameDns : site.dns = dns
  onRRsets : isRRsetWrite request = true

variable {dns : Dns} {dnspython : Dnspython} {name : Text}

/-- The database after some calls, refused or not. -/
def run (start : Database) (calls : List (Call dns)) : Database :=
  calls.foldl (fun db call => after call.site call.caller db call.request) start

theorem run_append_single (start : Database) (calls : List (Call dns)) (call : Call dns) :
    run start (calls ++ [call])
      = after call.site call.caller (run start calls) call.request := by
  simp [run]

/-- The default NS RRset of a new domain is a set of canonical names, of a type that is known. -/
structure DefaultNs (settings : Changes.Pdns.Settings) (dns : Dns) (dnspython : Dnspython) :
    Prop where
  known : Changes.Pdns.ns ∈ dns.validationTypes
  nonempty : settings.defaultNs ≠ []
  canonical (content : Text) (member : content ∈ settings.defaultNs) :
    canonicalPresentationFormat dnspython content Changes.Pdns.ns = .ok content

/-- The RRsets of a domain that has only its default NS RRset. -/
def defaultZone (settings : Changes.Pdns.Settings) : RRsets :=
  Finmap.insert nsItem ⟨settings.defaultNsTtl, settings.defaultNs.toFinset⟩ ∅

theorem wellFormed_of_default {settings : Changes.Pdns.Settings} {start : Database}
    (default : DefaultNs settings dns dnspython)
    (only : start.lookup name = some (defaultZone settings)) :
    AllWellFormed dns dnspython name start := by
  intro item rrset found
  simp only [value, only, Option.bind_some, defaultZone] at found
  obtain rfl : item = nsItem := by
    by_contra other
    rw [Finmap.lookup_insert_of_ne ∅ other] at found
    exact absurd found (by simp)
  rw [Finmap.lookup_insert] at found
  obtain rfl := Option.some.inj found
  have canonical : ∀ content ∈ settings.defaultNs.toFinset,
      canonicalPresentationFormat dnspython content Changes.Pdns.ns = .ok content :=
    fun content member => default.canonical content (List.mem_toFinset.mp member)
  refine ⟨?_, fun singleton => ?_, fun below => ?_, fun apex => rfl, ?_, canonical,
    fun content member => shortWire_of_canonical (canonical content member)⟩
  · obtain ⟨content, member⟩ := List.exists_mem_of_ne_nil _ default.nonempty
    exact ⟨content, List.mem_toFinset.mpr member⟩
  · exact absurd singleton (by decide)
  · exact absurd below (by decide)
  · have manageable : (Changes.Pdns.ns ∈ typesBackend ∧ Changes.Pdns.ns ∉ typesUnsupported) ∧
        Changes.Pdns.ns ∉ typesAutomatic := by decide
    simpa [typesManageable, nsItem, default.known] using manageable

theorem wellFormed_of_run (forms : Canonicalises dns dnspython) {start : Database}
    (calls : List (Call dns)) (first : AllWellFormed dns dnspython name start) :
    AllWellFormed dns dnspython name (run start calls) := by
  induction calls using List.reverseRecOn with
  | nil => exact first
  | append_singleton calls call ih =>
    rw [run_append_single]
    unfold after
    split
    · next done =>
      obtain ⟨site, caller, request, rfl, onRRsets⟩ := call
      exact wellFormed_of_handle forms onRRsets done ih
    · exact ih

/-- An RRset is stored since the start, or since a call with data of its type and subname. -/
def KeptSince (start : Database) (name : Text) (calls : List (Call dns)) (item : Item) : Prop :=
  (∀ n ≤ calls.length, (value (run start (calls.take n)) name item).isSome) ∨
    ∃ n call, calls[n]? = some call ∧ value (run start (calls.take n)) name item = none ∧
      Names call.site call.request name item ∧
      ∀ m, n < m → m ≤ calls.length → (value (run start (calls.take m)) name item).isSome

private theorem KeptSince.append {start : Database} {calls : List (Call dns)} {item : Item}
    (kept : KeptSince start name calls item) {call : Call dns}
    (still : (value (run start (calls ++ [call])) name item).isSome) :
    KeptSince start name (calls ++ [call]) item := by
  have later {P : Nat → Prop} (earlier : ∀ m, P m → m ≤ calls.length →
      (value (run start (calls.take m)) name item).isSome) (m : Nat) (holds : P m)
      (bound : m ≤ (calls ++ [call]).length) :
      (value (run start ((calls ++ [call]).take m)) name item).isSome := by
    rw [List.length_append, List.length_singleton] at bound
    rcases Nat.lt_or_ge calls.length m with beyond | within
    · rw [List.take_of_length_le (by simp; omega)]
      exact still
    · rw [List.take_append_of_le_length within]
      exact earlier m holds within
  rcases kept with always | ⟨n, known, found, absent, names, since⟩
  · exact Or.inl fun n bound => later (P := fun _ => True) (fun m _ => always m) n trivial bound
  · have inside : n < calls.length := (List.getElem?_eq_some_iff.mp found).1
    refine Or.inr ⟨n, known, ?_, ?_, names, later since⟩
    · rw [List.getElem?_append_left inside, found]
    · rw [List.take_append_of_le_length inside.le, absent]

private theorem keptSince_of_run {start : Database} (calls : List (Call dns)) {item : Item}
    (stored : (value (run start calls) name item).isSome) : KeptSince start name calls item := by
  induction calls using List.reverseRecOn with
  | nil =>
    refine Or.inl fun n bound => ?_
    simpa using stored
  | append_singleton calls call ih =>
    by_cases before : (value (run start calls) name item).isSome
    · exact (ih before).append stored
    · right
      rw [Bool.not_eq_true, Option.isSome_eq_false_iff, Option.isNone_iff_eq_none] at before
      have changed : value (after call.site call.caller (run start calls) call.request) name item
          ≠ value (run start calls) name item := by
        rw [before, ← run_append_single]
        exact Option.isSome_iff_ne_none.mp stored
      have names : Names call.site call.request name item := by
        rcases changed_of_after call.site call.caller (run start calls) call.request name item
          changed with ⟨names, -⟩ | ⟨zonefile, created, -⟩
        · exact names
        · have onRRsets := call.onRRsets
          rw [created] at onRRsets
          exact absurd onRRsets (by simp [isRRsetWrite])
      refine ⟨calls.length, call, by simp, by simpa using before, names, fun m beyond bound => ?_⟩
      rw [List.take_of_length_le (by simp at bound ⊢; omega)]
      exact stored

/-- In every run of requests on a new domain, each RRset that is ever stored is well formed, and
has kept the type and subname that it was created with. -/
theorem stored_wellFormed (dns : Dns) (dnspython : Dnspython)
    (forms : Canonicalises dns dnspython) (settings : Changes.Pdns.Settings)
    (default : DefaultNs settings dns dnspython) (name : Text) (start : Database)
    (only : start.lookup name = some (defaultZone settings)) (calls : List (Call dns))
    (item : Item) (rrset : RRset) (stored : value (run start calls) name item = some rrset) :
    WellFormed dns dnspython item rrset ∧ KeptSince start name calls item :=
  ⟨wellFormed_of_run forms calls (wellFormed_of_default default only) item rrset stored,
    keptSince_of_run calls (by simp [stored])⟩

end Runs

section Sample

private def server₁ : Text := "ns1.example.".toList

private def capitals₁ : Text := "NS1.Example.".toList

/-- A library that knows one name, in two spellings. -/
private def dnspython₁ : Dnspython where
  toWire _ content :=
    if content = server₁ ∨ content = capitals₁ then
      .ok [3, 110, 115, 49, 7, 101, 120, 97, 109, 112, 108, 101, 0]
    else .error .needAbsoluteNameOrOrigin
  toText _ _ := .ok server₁

private def dns₁ : Dns where
  validationTypes := {Changes.Pdns.ns}
  canonical := canonicalPresentationFormat dnspython₁
  wire _ content := content
  nameTooLong _ _ := false

private theorem canonicalises₁ : Canonicalises dns₁ dnspython₁ := by
  refine ⟨rfl, fun content type text done => ?_⟩
  have same : text = server₁ := by
    unfold canonicalPresentationFormat at done
    split at done
    · exact absurd done (by simp)
    · split at done
      · exact absurd done (by simp)
      · exact (Except.ok.inj done).symm
  rw [same]
  rfl

private def site₁ : Site where
  unicode := .plain
  dns := dns₁
  settings := ⟨[server₁], 3600, "catalog.internal.".toList, false, id⟩
  orders := sortedOrders
  contents := sortedOrders.names
  minimumTtl _ := 60
  minimumTtlDefault := 60
  isLocallyRegistrable _ := false
  blockedSubnet _ := false
  isValidName _ := true
  registerLps := true
  parseZonefile _ _ := .ok []
  leaves _ := true

private def name₁ : Text := "a.example".toList

private def caller₁ : Caller where
  token := ⟨1, 1, none, none, false, false, false, false⟩
  policies := []
  mfaEnabled := false
  domains := {name₁}
  limitDomains := none

/-- A request for an NS RRset below the apex. -/
private def call₁ : Call dns₁ where
  site := site₁
  caller := caller₁
  request := .post name₁ (.dict [(subnameKey, .str "sub".toList), (typeKey, .str "NS".toList),
    (ttlKey, .int 3600), (recordsKey, .list [.str capitals₁])])
  sameDns := rfl
  onRRsets := rfl

private def start₁ : Database := Finmap.insert name₁ (defaultZone site₁.settings) ∅

private theorem default₁ : DefaultNs site₁.settings dns₁ dnspython₁ := by
  refine ⟨by decide, by decide, fun content member => ?_⟩
  obtain rfl := List.mem_singleton.mp member
  rfl

private def item₁ : Item := ("NS".toList, "sub".toList)

private theorem created₁ : value start₁ name₁ item₁ = none ∧
    value (run start₁ [call₁]) name₁ item₁ = some ⟨3600, {server₁}⟩ := by
  decide +kernel

/-- The request creates an RRset, whose content is stored in canonical form. -/
theorem stored_wellFormed_created : value start₁ name₁ item₁ = none ∧
    WellFormed dns₁ dnspython₁ item₁ ⟨3600, {server₁}⟩ ∧ KeptSince start₁ name₁ [call₁] item₁ :=
  ⟨created₁.1, stored_wellFormed dns₁ dnspython₁ canonicalises₁ site₁.settings default₁ name₁ start₁
    (Finmap.lookup_insert _) [call₁] item₁ ⟨3600, {server₁}⟩ created₁.2⟩

end Sample

end DesecStack.Views.Stored
