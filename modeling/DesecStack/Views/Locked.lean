/- module: DesecStack/Views/Locked
   layer: main results
   digest: The NS RRsets of a locally registrable domain can only be deleted, below its apex. -/

import DesecStack.Names.Qnames
import DesecStack.Records.Child
import DesecStack.Records.Values
import DesecStack.Views.Enforced

set_option autoImplicit false
set_option relaxedAutoImplicit false

namespace DesecStack.Views.Locked

open Library.PyText
open Library.Runs (Along bind_eq_ok_iff)
open Changes.Models
open Changes.Compute (nsItem)
open Changes.Pdns (ns)
open Names.Qnames (isLocallyRegistrable)
open Records.Fields
open Records.Serializer
open Records.ListSerializer (knownInstance keyOfRow)
open Records.Save
open Records.Rows (Entries)
open Records.Validated
open Records.Child
open Records.Accepted
open Records.Frames
open Records.Values
open Records.BulkExact (Method bulkRequest save storedItem validRow_of_mem keyOf_validated)
open Enforced
open Writes

/-- The NS RRsets of a domain are as they were, but those below the apex may be gone. -/
def NsLocked (name : Text) (before after : Database) : Prop :=
  value after name nsItem = value before name nsItem ∧
    ∀ subname, value after name (ns, subname) = value before name (ns, subname) ∨
      subname ≠ [] ∧ value after name (ns, subname) = none

section NsLocked

variable {name : Text} {first second third : Database}

private theorem nsLocked_of_each (each : ∀ subname,
    value second name (ns, subname) = value first name (ns, subname) ∨
      subname ≠ [] ∧ value second name (ns, subname) = none) : NsLocked name first second := by
  refine ⟨?_, each⟩
  rcases each [] with kept | gone
  · exact kept
  · exact absurd rfl gone.1

private theorem NsLocked.trans (one : NsLocked name first second)
    (two : NsLocked name second third) :
    NsLocked name first third := by
  refine ⟨two.1.trans one.1, fun subname => ?_⟩
  rcases two.2 subname with kept | gone
  · rw [kept]
    exact one.2 subname
  · exact Or.inr gone

private theorem nsLocked_of_confined {d : Text} {allowed : Item → Prop}
    (confined : Confined d allowed first second)
    (own : ∀ subname, d = name → allowed (ns, subname) →
      subname ≠ [] ∧ value second name (ns, subname) = none) : NsLocked name first second := by
  apply nsLocked_of_each
  intro subname
  by_cases changed : value second name (ns, subname) = value first name (ns, subname)
  · exact Or.inl changed
  · obtain ⟨here, allows⟩ := confined name (ns, subname) changed
    exact Or.inr (own subname here.symm allows)

end NsLocked

section Rows

variable {ctx : Context} (registrable : ctx.isLocallyRegistrable = true)
include registrable

private theorem ns_of_runValidation {root : Root} {instance? : Instance} {entries : Entries}
    {attrs : Attrs} (done : runValidation ctx root instance? entries = .ok attrs)
    (typed : typeOr instance? attrs = .ok ns) :
    isEmpty attrs = true ∧ ∃ known, instance? = some known ∧ attrs.subname.getD known.1.2 ≠ [] := by
  simp only [runValidation, bind_eq_ok_iff] at done
  obtain ⟨fields, -, _, -, validated⟩ := done
  simp only [validate, bind_eq_ok_iff] at validated
  obtain ⟨type, isType, records, -, _, checked, same⟩ := validated
  obtain rfl := Except.ok.inj same
  have isNs : type = ns := Except.ok.inj (isType.symm.trans typed)
  simp only [validateNs, isNs, registrable, and_self, if_true] at checked
  split at checked
  · exact absurd checked (by simp)
  · next empty =>
    refine ⟨by simpa [isEmpty] using empty, ?_⟩
    split at checked
    · exact absurd checked (by simp)
    · next known =>
      split at checked
      · exact absurd checked (by simp)
      · next below => exact ⟨known, rfl, below⟩

private theorem ns_of_valid {method : Method} {selected : Finset Item} {rows : List Json}
    (valid : Valid (bulkRequest method ctx selected) rows) {entry : Entries}
    (member : entry ∈ entries rows) (isNs : (storedItem entry).1 = ns) :
    isEmpty (validated (bulkRequest method ctx selected) entry) = true ∧
      storedItem entry ∈ (bulkRequest method ctx selected).queryset
        ∧ (storedItem entry).2 ≠ [] := by
  have row := validRow_of_mem rfl valid member
  obtain ⟨-, -, -, done⟩ := valid.of_mem member
  have typed : typeOr (knownInstance (bulkRequest method ctx selected) (keyOfRow entry))
      (validated (bulkRequest method ctx selected) entry) = .ok ns := by
    simp [typeOr, row.type, isNs, ns]
  obtain ⟨empty, known, found, below⟩ := ns_of_runValidation (by exact registrable) done typed
  obtain ⟨same, -⟩ := row.known known found
  refine ⟨empty, same ▸ (knownInstance_some found).2.1, ?_⟩
  simpa [row.subname] using below

omit registrable in
private theorem nsLocked_of_listUpdate {env : Env} {d : Text} {session session' : Session}
    {queryset : Finset Item} {result : List Attrs}
    (emptying : ∀ attrs ∈ result, (keyOf attrs).1 = ns →
      isEmpty attrs = true ∧ keyOf attrs ∈ queryset ∧ (keyOf attrs).2 ≠ [])
    (done : listUpdate env session queryset result = .ok session') :
    NsLocked d session.db session'.db := by
  have confined : Confined env.name (· ∈ result.map keyOf) session.db session'.db :=
    confined_of_listUpdate (fun _ member => List.mem_map_of_mem member) done
  apply nsLocked_of_confined confined
  rintro subname rfl member
  have listed := listed_of_listUpdate done (List.mem_toFinset.mpr member)
  obtain ⟨attrs, there, isNs⟩ := List.mem_map.mp member
  obtain ⟨empty, known, below⟩ := emptying attrs there (by rw [isNs])
  rw [isNs] at known below
  refine ⟨below, listed.deleted known ?_⟩
  exact List.mem_toFinset.mpr (List.mem_map.mpr ⟨attrs, List.mem_filter.mpr ⟨there, empty⟩, isNs⟩)

end Rows

section Requests

variable {site : Site} {caller : Caller} {db db' : Database} {name : Text}

private theorem nsLocked_of_saveMany {d : Text} {ctx : Context} {method : Method}
    {selected : Finset Item}
    {session session' : Session} {data : Json}
    (registrable : d = name → ctx.isLocallyRegistrable = true)
    (done : saveMany site d ctx method selected session data = .ok session') :
    NsLocked name session.db session'.db := by
  by_cases same : d = name
  · obtain ⟨rows, -, valid, -, saving⟩ := rows_of_saveMany done
    have emptying : ∀ attrs ∈ (entries rows).map (validated (bulkRequest method ctx selected)),
        (keyOf attrs).1 = ns → isEmpty attrs = true ∧
          keyOf attrs ∈ (bulkRequest method ctx selected).queryset ∧ (keyOf attrs).2 ≠ [] := by
      intro attrs member isNs
      obtain ⟨entry, there, rfl⟩ := List.mem_map.mp member
      rw [keyOf_validated rfl valid there] at isNs ⊢
      exact ns_of_valid (registrable same) valid there isNs
    cases method with
    | post =>
      have confined : Confined d (· ∈ ((entries rows).map
          (validated (bulkRequest .post ctx selected))).map keyOf) session.db session'.db :=
        confined_of_listCreate (fun _ member => List.mem_map_of_mem member) saving
      apply nsLocked_of_confined confined
      intro subname _ member
      obtain ⟨attrs, there, isNs⟩ := List.mem_map.mp member
      obtain ⟨-, known, -⟩ := emptying attrs there (by rw [isNs])
      simp [bulkRequest] at known
    | patch => exact nsLocked_of_listUpdate emptying saving
    | put => exact nsLocked_of_listUpdate emptying saving
  · obtain ⟨_, _, _, confined⟩ := spec_of_saveMany done
    exact nsLocked_of_confined confined fun _ here => absurd here same

private theorem nsLocked_of_saveOne {d : Text} {ctx : Context} {isPartial : Bool}
    {instance? : Instance}
    {data : Json} (registrable : d = name → ctx.isLocallyRegistrable = true)
    (done : saveOne site db d ctx isPartial instance? data = .ok db') : NsLocked name db db' := by
  unfold saveOne at done
  split at done
  · split at done
    · exact absurd done (by simp)
    · next entries attrs valid =>
      obtain ⟨session, single, rfl⟩ := db_of_committed done
      have saving := ok_of_saved single
      have child := validChild_of_runValidation valid
      apply nsLocked_of_confined (confined_of_conditionalSave rfl saving)
      intro subname same isNs
      cases instance? with
      | none =>
        obtain ⟨type, given, typed⟩ := child.typeOr_new
        have wanted : type = ns := by
          have key := congrArg Prod.fst isNs
          simpa [keyOf, given] using key.symm
        obtain ⟨-, known, found, -⟩ := ns_of_runValidation (registrable same) valid (wanted ▸ typed)
        exact absurd found (by simp)
      | some known =>
        have isKnown : known.1 = (ns, subname) := by simpa using isNs.symm
        obtain ⟨empty, other, found, below⟩ := ns_of_runValidation (registrable same) valid
          (by rw [child.typeOr_known, isKnown])
        obtain rfl := Option.some.inj found
        constructor
        · rintro rfl
          cases given : attrs.subname with
          | none => simp [given, isKnown] at below
          | some subname =>
            rw [given, Option.getD_some, child.subname subname given known rfl, isKnown] at below
            exact below rfl
        · simp only [conditionalSave, empty] at saving
          rw [← same, ← isKnown]
          exact (value_of_delete saving).2
  · exact absurd done (by simp)

/-- A request on the RRsets of a domain: `POST`, `PATCH` and `PUT` on the list, for one RRset or
for many, and `PATCH`, `PUT` and `DELETE` on one RRset. -/
def isRRsetRequest : WriteRequest → Bool
  | .post _ _ | .update _ _ _ _ | .updateDetail _ _ _ _ | .destroyDetail _ _ => true
  | .dynDns _ _ _ | .createDomain _ _ => false

private theorem nsLocked_of_handle {request : WriteRequest}
    (registrable : site.isLocallyRegistrable name = true) (onRRsets : isRRsetRequest request = true)
    (done : handle site caller db request = .ok db') : NsLocked name db db' := by
  have context {d : Text} (same : d = name) : site.isLocallyRegistrable d = true := by
    rw [same, registrable]
  cases request with
  | post d data =>
    simp only [handle, post, bind_eq_ok_iff] at done
    obtain ⟨rrsets, -, done⟩ := done
    split at done
    · obtain ⟨session, many, rfl⟩ := db_of_committed done
      exact nsLocked_of_saveMany context many
    · exact nsLocked_of_saveOne context done
  | update isPartial d query data =>
    simp only [handle, updateMany, bind_eq_ok_iff] at done
    obtain ⟨rrsets, -, selected, -, done⟩ := done
    obtain ⟨session, many, rfl⟩ := db_of_committed done
    exact nsLocked_of_saveMany context many
  | updateDetail isPartial d item data =>
    simp only [handle, updateDetail, bind_eq_ok_iff] at done
    obtain ⟨rrsets, -, rrset, -, done⟩ := done
    exact nsLocked_of_saveOne context done
  | destroyDetail d item =>
    simp only [handle, destroyDetail] at done
    split at done
    · obtain rfl := Except.ok.inj done
      exact nsLocked_of_each fun _ => Or.inl rfl
    · simp only [bind_eq_ok_iff] at done
      obtain ⟨rrsets, -, rrset, -, done⟩ := done
      split at done
      · exact absurd done (by simp)
      · next below =>
        obtain ⟨session, deleted, rfl⟩ := db_of_committed done
        have deleting := ok_of_saved deleted
        have confined : Confined d (· = item) db session.db := confined_of_delete (by rfl) deleting
        apply nsLocked_of_confined confined
        rintro subname same rfl
        refine ⟨?_, same ▸ (value_of_delete deleting).2⟩
        rintro rfl
        exact below ⟨rfl, context same⟩
  | dynDns d subnames rows => exact absurd onRRsets (by simp [isRRsetRequest])
  | createDomain d zonefile => exact absurd onRRsets (by simp [isRRsetRequest])

end Requests

section Runs

variable (localPublicSuffixes : Finset Text)

/-- A request on RRsets at some time, with the site as it is then. -/
structure Call where
  site : Site
  caller : Caller
  request : WriteRequest
  suffixes : site.isLocallyRegistrable = isLocallyRegistrable localPublicSuffixes
  onRRsets : isRRsetRequest request = true

variable {localPublicSuffixes}

/-- The database after a call, refused or not. -/
def step (db : Database) (call : Call localPublicSuffixes) : Option Database :=
  some (after call.site call.caller db call.request)

private theorem nsLocked_of_step {db db' : Database} {call : Call localPublicSuffixes} {name : Text}
    (registrable : isLocallyRegistrable localPublicSuffixes name = true)
    (taken : step db call = some db') : NsLocked name db db' := by
  obtain rfl := Option.some.inj taken
  unfold after
  split
  · next done =>
    exact nsLocked_of_handle (by rw [call.suffixes, registrable]) call.onRRsets done
  · exact nsLocked_of_each fun _ => Or.inl rfl

/-- Along every run of requests on RRsets, the NS RRset at the apex of a locally registrable
domain stays as it is, and each other NS RRset too, until it is deleted. -/
theorem ns_locked (localPublicSuffixes : Finset Text) (name : Text)
    (registrable : isLocallyRegistrable localPublicSuffixes name = true) (db : Database)
    (calls : List (Call localPublicSuffixes)) :
    Along step (fun before _ after => NsLocked name before after) db calls ∧
      ∃ last, calls.foldlM step db = some last ∧ NsLocked name db last := by
  induction calls generalizing db with
  | nil => exact ⟨trivial, db, rfl, nsLocked_of_each fun _ => Or.inl rfl⟩
  | cons call rest ih =>
    refine ⟨fun next taken => ⟨nsLocked_of_step registrable taken, (ih next).1⟩, ?_⟩
    obtain ⟨last, run, locked⟩ := (ih (after call.site call.caller db call.request)).2
    exact ⟨last, run, (nsLocked_of_step registrable rfl).trans locked⟩

end Runs

section Sample

private noncomputable def site₁ : Site where
  unicode := .plain
  dns := ⟨{ns}, fun content _ => .ok content, fun _ content => content, fun _ _ => false⟩
  settings := ⟨["ns1.example.".toList], 3600, "catalog.internal.".toList, false, id⟩
  orders := ⟨default, default, ⟨default, default⟩⟩
  contents := default
  minimumTtl _ := 60
  minimumTtlDefault := 60
  isLocallyRegistrable := isLocallyRegistrable {"dedyn.io".toList}
  blockedSubnet _ := false
  isValidName _ := true
  registerLps := true
  parseZonefile _ _ := .ok []
  leaves _ := true

private def name₁ : Text := "a.dedyn.io".toList

private def caller₁ : Caller where
  token := ⟨1, 1, none, none, false, false, false, false⟩
  policies := []
  mfaEnabled := false
  domains := {name₁}
  limitDomains := none

private def db₁ : Database :=
  Finmap.insert name₁ (Finmap.insert nsItem ⟨3600, {"ns1.example.".toList}⟩
    (Finmap.insert (ns, "sub".toList) ⟨3600, {"ns2.example.".toList}⟩ ∅)) ∅

private noncomputable def call₁ (item : Item) : Call {"dedyn.io".toList} where
  site := site₁
  caller := caller₁
  request := .destroyDetail name₁ item
  suffixes := rfl
  onRRsets := rfl

theorem ns_locked_dedyn :
    Along step (fun before _ after => NsLocked name₁ before after) db₁
        [call₁ nsItem, call₁ (ns, "sub".toList)] ∧
      ∃ last, [call₁ nsItem, call₁ (ns, "sub".toList)].foldlM step db₁ = some last ∧
        NsLocked name₁ db₁ last :=
  ns_locked {"dedyn.io".toList} name₁ (by decide) db₁ [call₁ nsItem, call₁ (ns, "sub".toList)]

end Sample

end DesecStack.Views.Locked
