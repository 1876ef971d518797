/- module: DesecStack/Views/WrittenBack
   layer: main results
   digest: RRsets that are read through the API and written back leave the database as it is. -/

import DesecStack.Views.Reads
import DesecStack.Views.Repeated
import DesecStack.Views.Stored

set_option autoImplicit false
set_option relaxedAutoImplicit false

namespace DesecStack.Views.WrittenBack

open Library.PyText
open Library.Surrogates
open Library.Runs (bind_eq_ok_iff)
open Changes.Models
open Changes.Compute (nsItem sortedOrders)
open Changes.Pdns (constructName)
open Records.Fields
open Records.Serializer
open Records.ListSerializer (shape isEmptyRow)
open Records.Save
open Records.Rows (Entries readKey)
open Records.Child
open Records.Accepted
open Records.Applied
open Records.TextRows
open Records.Canonical
open Records.Values
open Records.BulkExact (Method bulkRequest storedItem)
open Reads (RRsetRow DomainRow Reader ReadRequest Response)
open Repeated (ListView listView_contextOf validated_of_saveOne value_of_detailObject)
open Stored
open Enforced
open Writes

section Model

variable (time : Nat → Text) (name : Text)

/-- The fields of an RRset with records, in the order of the serializer. -/
def fieldsOf (row : RRsetRow) : Entries :=
  [("created".toList, .str (time row.created)), ("domain".toList, .str name),
    (subnameKey, .str row.subname), ("name".toList, .str (constructName row.subname name)),
    (recordsKey, .list (row.records.map .str)), (ttlKey, .int row.ttl), (typeKey, .str row.type),
    ("touched".toList, .str (time row.touched))]

/-- `to_representation`; times are written by `time`. -/
def representation (row : RRsetRow) : Json := .dict (fieldsOf time name row)

def itemOf (row : RRsetRow) : Item := (row.type, row.subname)

/-- What a list or a detail view answers. -/
def Answers (reader : Reader) (rows : List DomainRow) (shown : List RRsetRow) : Prop :=
  (∃ query, Reads.respond reader rows (.listRRsets name query) = .rrsets shown) ∨
    ∃ item row, Reads.respond reader rows (.retrieveRRset name item) = .rrset row ∧ shown = [row]

/-- The rows show what is in the database. -/
def Shows (rows : List DomainRow) (db : Database) : Prop :=
  ∀ domain ∈ rows, ∀ row ∈ domain.rrsets,
    value db domain.name (itemOf row) = some ⟨row.ttl, row.records.toFinset⟩

/-- Requests with representations: lists with some of those that were shown, in any order and to
any selection, and single ones to their own address or to be created. -/
inductive WritesBack (shown : List RRsetRow) : WriteRequest → Prop where
  | update (isPartial : Bool) (query : Query) (rows : List RRsetRow) (all : rows ⊆ shown) :
      WritesBack shown (.update isPartial name query (.list (rows.map (representation time name))))
  | post (rows : List RRsetRow) (all : rows ⊆ shown) :
      WritesBack shown (.post name (.list (rows.map (representation time name))))
  | updateDetail (isPartial : Bool) (row : RRsetRow) (member : row ∈ shown) :
      WritesBack shown (.updateDetail isPartial name (itemOf row) (representation time name row))
  | postOne (row : RRsetRow) (member : row ∈ shown) :
      WritesBack shown (.post name (representation time name row))

end Model

section Rows

variable {time : Nat → Text} {name : Text} {row : RRsetRow} {rows : List RRsetRow}

private theorem gives_fieldsOf : Gives (fieldsOf time name row) (itemOf row) row.ttl row.records :=
  ⟨rfl, rfl, rfl, rfl⟩

private theorem shape_representation :
    shape (representation time name row) = .ok (fieldsOf time name row) := rfl

private theorem mem_entries {data : Entries} :
    data ∈ entries (rows.map (representation time name)) ↔
      ∃ row ∈ rows, fieldsOf time name row = data := by
  simp [entries, shape_representation, Except.toOption, List.filterMap_map]

/-- Types and subnames without blanks at their ends. -/
def Trimmed (item : Item) : Prop := (strip item.1, strip item.2) = item

/-- An RRset that is stored in canonical form, under a type and subname without blanks. -/
structure Faithful (dns : Dns) (db : Database) (name : Text) (row : RRsetRow) : Prop where
  stored : value db name (itemOf row) = some ⟨row.ttl, row.records.toFinset⟩
  nonempty : row.records ≠ []
  trimmed : Trimmed (itemOf row)
  canonical : ∀ content ∈ row.records,
    strip content = content ∧ dns.canonical content row.type = .ok content

variable {dns : Dns} {db : Database}

private theorem Faithful.forms_eq (faithful : Faithful dns db name row) {forms : List Text}
    (canonical : List.Forall₂
      (fun content form => dns.canonical (strip content) row.type = .ok form)
      row.records forms) : forms = row.records := by
  have all := faithful.canonical
  clear faithful
  generalize row.records = contents at canonical all
  induction canonical with
  | nil => rfl
  | cons form _ ih =>
    obtain ⟨⟨trimmed, own⟩, later⟩ := List.forall_mem_cons.mp all
    rw [trimmed, own] at form
    rw [← Except.ok.inj form, ih later]

private theorem Faithful.cleaned_eq (faithful : Faithful dns db name row) {env : Env}
    (sameDns : env.dns = dns) {new : Finset Text}
    (clean : cleanRecords env (itemOf row) row.records = .ok new) : new = row.records.toFinset := by
  have cleaned := cleaned_of_cleanRecords clean
  apply Finset.eq_of_subset_of_card_le
  · intro content member
    obtain ⟨record, there, form⟩ := cleaned.canonical content member
    rw [sameDns, show (itemOf row).1 = row.type from rfl,
      (faithful.canonical record there).2] at form
    exact List.mem_toFinset.mpr (Except.ok.inj form ▸ there)
  · rw [cleaned.count]
    exact List.toFinset_card_le _

private theorem Faithful.updated_eq (faithful : Faithful dns db name row) {env : Env}
    (sameDns : env.dns = dns) {attrs : Attrs} {after : Option RRset}
    (isTtl : attrs.ttl = some (row.ttl : Int)) (isRecords : attrs.records = some row.records)
    (updated : Updated env (itemOf row) attrs ⟨row.ttl, row.records.toFinset⟩ after) :
    after = some ⟨row.ttl, row.records.toFinset⟩ := by
  obtain ⟨new, clean, -, rfl⟩ := updated
  rw [faithful.cleaned_eq sameDns (clean _ isRecords), isTtl, ttlAfter]
  split <;> rfl

end Rows

section Requests

variable {time : Nat → Text} {name : Text} {site : Site} {caller : Caller} {db after : Database}
  {row : RRsetRow} {rows : List RRsetRow}

private theorem Faithful.storedItem_eq (faithful : Faithful site.dns db name row) :
    storedItem (fieldsOf time name row) = itemOf row :=
  gives_fieldsOf.storedItem_eq.trans faithful.trimmed

private theorem Faithful.isEmptyRow_eq (faithful : Faithful site.dns db name row) :
    isEmptyRow (fieldsOf time name row) = false := by
  rw [← Bool.not_eq_true, gives_fieldsOf.isEmptyRow_iff]
  exact faithful.nonempty

private theorem unchanged_of_saveMany {method : Method} {ctx : Context} {selected : Finset Item}
    {session : Session} (view : ListView site name ctx selected db)
    (faithful : ∀ row ∈ rows, Faithful site.dns db name row)
    (done : saveMany site name ctx method selected ⟨db, []⟩
      (.list (rows.map (representation time name))) = .ok session) (d : Text) (item : Item) :
    value session.db d item = value db d item := by
  obtain ⟨_, isList, valid, checked, saved⟩ := rows_of_saveMany done
  obtain rfl := Json.list.inj isList
  by_contra differs
  obtain ⟨_, isList, -, confined⟩ := spec_of_saveMany done
  obtain rfl := Json.list.inj isList
  obtain ⟨rfl, -, written, inRows, data, shaped, named⟩ := confined d item differs
  obtain ⟨row, inside, rfl⟩ := List.mem_map.mp inRows
  obtain rfl := Except.ok.inj (shape_representation.symm.trans shaped)
  have own := faithful row inside
  have isItem : itemOf row = item := by
    have stored : storedItem (fieldsOf time d row) = itemOf row := own.storedItem_eq
    rw [← stored, storedItem, named]
    rfl
  subst isItem
  have member : fieldsOf time d row ∈ entries (rows.map (representation time d)) :=
    mem_entries.mpr ⟨row, inside, rfl⟩
  have agrees : Records.BulkExact.Agrees (envOf site d) ctx ⟨db, []⟩ :=
    ⟨view.unicode.symm, view.stored⟩
  have outcome := outcome_of_save agrees view.selectable valid checked saved member
  rw [own.storedItem_eq] at outcome
  have updated := outcome.updated _ own.stored own.isEmptyRow_eq
  rw [own.storedItem_eq] at updated
  obtain ⟨-, -, -, ran⟩ := valid.of_mem member
  have typed := typeOr_validated valid member
  rw [own.storedItem_eq] at typed
  obtain ⟨isTtl, forms, isForms, canonical⟩ := gives_fieldsOf.attrs_of_run ran typed
  have sameDns : (bulkRequest method ctx selected).ctx.dns = site.dns := view.dns
  rw [sameDns] at canonical
  rw [own.forms_eq canonical] at isForms
  apply differs
  rw [own.stored]
  exact own.updated_eq rfl isTtl isForms updated

private theorem unchanged_of_updateDetail {isPartial : Bool}
    (faithful : Faithful site.dns db name row)
    (done : updateDetail site caller db isPartial name (itemOf row) (representation time name row)
      = .ok after) (d : Text) (item : Item) : value after d item = value db d item := by
  simp only [updateDetail, bind_eq_ok_iff] at done
  obtain ⟨rrsets, view, rrset, object, done⟩ := done
  have found := value_of_detailObject (lookup_of_rrsetView view) object
  obtain ⟨data, attrs, session, isData, valid, saving, rfl⟩ := validated_of_saveOne done
  obtain rfl := Json.dict.inj isData
  by_contra differs
  obtain ⟨rfl, rfl⟩ := confined_of_conditionalSave rfl saving d item differs
  obtain ⟨isTtl, forms, isForms, canonical⟩ :=
    gives_fieldsOf.attrs_of_run valid (validChild_of_runValidation valid).typeOr_known
  have sameDns : (contextOf site caller d rrsets (site.minimumTtl d) false
      (some (itemOf row).2)).dns = site.dns := rfl
  rw [sameDns] at canonical
  rw [faithful.forms_eq canonical] at isForms
  have nonempty : isEmpty attrs = false := by
    rw [isEmpty, isForms]
    simpa using faithful.nonempty
  simp only [conditionalSave, nonempty] at saving
  apply differs
  show value session.db d (itemOf row) = value db d (itemOf row)
  rw [faithful.stored]
  exact faithful.updated_eq rfl isTtl isForms (updated_of_update faithful.stored saving)

private theorem unchanged_of_postOne (faithful : Faithful site.dns db name row)
    (done : post site caller db name (representation time name row) = .ok after) : False := by
  simp only [post, bind_eq_ok_iff, representation] at done
  obtain ⟨rrsets, view, done⟩ := done
  obtain ⟨data, attrs, session, isData, valid, saving, rfl⟩ := validated_of_saveOne done
  obtain rfl := Json.dict.inj isData
  obtain ⟨named, -⟩ := named_of_runValidation rfl valid
  have isKey : keyOf attrs = itemOf row :=
    (Option.some.inj named).symm.trans faithful.trimmed
  have nonempty : isEmpty attrs = false :=
    decide_eq_false ((validChild_of_runValidation valid).nonempty rfl)
  simp only [conditionalSave, nonempty] at saving
  obtain ⟨absent, -⟩ := created_of_create saving
  rw [isKey] at absent
  have there := faithful.stored
  rw [show value db name (itemOf row) = none from absent] at there
  cases there

/-- Whatever is written back of faithful rows, nothing changes. -/
theorem unchanged_of_writesBack {shown : List RRsetRow} {request : WriteRequest}
    (faithful : ∀ row ∈ shown, Faithful site.dns db name row)
    (back : WritesBack time name shown request) (d : Text) (item : Item) :
    value (Writes.after site caller db request) d item = value db d item := by
  unfold Writes.after
  split
  · next after done =>
    cases back with
    | update isPartial query rows all =>
      simp only [handle, updateMany, bind_eq_ok_iff] at done
      obtain ⟨rrsets, view, selected, chosen, done⟩ := done
      obtain ⟨session, saving, rfl⟩ := db_of_committed done
      exact unchanged_of_saveMany
        (listView_contextOf (lookup_of_rrsetView view) (subset_of_queryset chosen))
        (fun row member => faithful row (all member)) saving d item
    | post rows all =>
      simp only [handle, post, bind_eq_ok_iff] at done
      obtain ⟨rrsets, view, done⟩ := done
      obtain ⟨session, saving, rfl⟩ := db_of_committed done
      exact unchanged_of_saveMany
        (listView_contextOf (lookup_of_rrsetView view) (Finset.empty_subset _))
        (fun row member => faithful row (all member)) saving d item
    | updateDetail isPartial row member =>
      exact unchanged_of_updateDetail (faithful row member) done d item
    | postOne row member => exact (unchanged_of_postOne (faithful row member) done).elim
  · rfl

end Requests

section Runs

variable {name : Text} {dns : Dns} {dnspython : Dnspython}

private theorem trimmed_of_rowNames {row : Json} {item : Item} (named : RowNames row item) :
    Trimmed item := by
  obtain ⟨entries, -, key⟩ := named
  simp only [readKey, Prod.mk.injEq, Option.map_eq_some_iff] at key
  obtain ⟨⟨subname, -, isSubname⟩, type, -, isType⟩ := key
  rw [Trimmed, strip_of_strip_eq isSubname, strip_of_strip_eq isType]

private theorem trimmed_of_namedItem {entries : Entries} {item : Item}
    (named : namedItem entries = some item) : Trimmed item := by
  simp only [namedItem, Option.bind_eq_bind, Option.bind_eq_some_iff] at named
  obtain ⟨type, -, subname, -, t, isType, s, isSubname, same⟩ := named
  rw [Trimmed, ← Option.some.inj same, strip_of_strip_eq (Str.toText_eq_some_iff.mp isType),
    strip_of_strip_eq (Str.toText_eq_some_iff.mp isSubname)]

private theorem trimmed_of_after {site : Site} {caller : Caller} {db : Database}
    {request : WriteRequest}
    {item : Item} (onRRsets : isRRsetWrite request = true) (absent : value db name item = none)
    (there : value (Writes.after site caller db request) name item ≠ none) : Trimmed item := by
  have differs := there
  rw [← absent] at differs
  rcases changed_of_after site caller db request name item differs with
    ⟨named, -⟩ | ⟨zonefile, rfl, -⟩
  · cases request with
    | post d data =>
      cases data with
      | list rows =>
        obtain ⟨-, row, -, named⟩ := named
        exact trimmed_of_rowNames named
      | dict entries => exact trimmed_of_namedItem named.2
      | _ => exact named.elim
    | update isPartial d query data =>
      cases data with
      | list rows =>
        obtain ⟨-, row, -, named⟩ := named
        exact trimmed_of_rowNames named
      | _ => exact named.elim
    | updateDetail isPartial d other data =>
      obtain ⟨rfl, rfl⟩ := named
      unfold Writes.after at there
      split at there
      · next done =>
        simp only [handle, updateDetail, bind_eq_ok_iff] at done
        obtain ⟨rrsets, view, rrset, object, -⟩ := done
        rw [value_of_detailObject (lookup_of_rrsetView view) object] at absent
        cases absent
      · exact (there absent).elim
    | destroyDetail d other =>
      obtain ⟨rfl, rfl⟩ := named
      unfold Writes.after at there
      split at there
      · next done =>
        simp only [handle, destroyDetail] at done
        split at done
        · exact (there (Except.ok.inj done ▸ absent)).elim
        · simp only [bind_eq_ok_iff] at done
          obtain ⟨rrsets, view, rrset, object, -⟩ := done
          rw [value_of_detailObject (lookup_of_rrsetView view) object] at absent
          cases absent
      · exact (there absent).elim
    | dynDns d subnames rows =>
      obtain ⟨-, row, -, named⟩ := named
      exact trimmed_of_rowNames named
    | createDomain d zonefile => cases onRRsets
  · cases onRRsets

private theorem trimmed_of_run {start : Database} (calls : List (Call dns))
    (first : ∀ item, value start name item ≠ none → Trimmed item) (item : Item)
    (stored : value (run start calls) name item ≠ none) : Trimmed item := by
  induction calls using List.reverseRecOn with
  | nil => exact first item stored
  | append_singleton calls call ih =>
    rw [run_append_single] at stored
    by_cases absent : value (run start calls) name item = none
    · exact trimmed_of_after call.onRRsets absent stored
    · exact ih absent

private theorem trimmed_of_default {settings : Changes.Pdns.Settings} {start : Database}
    (only : start.lookup name = some (defaultZone settings)) (item : Item)
    (stored : value start name item ≠ none) : Trimmed item := by
  simp only [value, only, Option.bind_some, defaultZone] at stored
  by_cases default : item = nsItem
  · rw [default]
    rfl
  · rw [Finmap.lookup_insert_of_ne ∅ default, Finmap.lookup_empty] at stored
    exact (stored rfl).elim

/-- What is shown of a domain are rows of that domain. -/
theorem subset_of_answers {reader : Reader} {rows : List DomainRow} {shown : List RRsetRow}
    (answers : Answers name reader rows shown) :
    ∃ domain ∈ rows, domain.name = name ∧ shown ⊆ domain.rrsets := by
  have ofView {row : DomainRow} (view : Reads.viewDomain reader rows name = some row) :
      row ∈ rows ∧ row.name = name := by
    rw [Reads.viewDomain] at view
    have named := List.find?_some view
    exact ⟨(List.mem_filter.mp (List.mem_of_find?_eq_some view)).1, of_decide_eq_true named⟩
  rcases answers with ⟨query, answer⟩ | ⟨item, row, answer, rfl⟩
  · simp only [Reads.respond] at answer
    split at answer
    · split at answer
      · cases answer
      · next domain view =>
        refine ⟨domain, (ofView view).1, (ofView view).2, ?_⟩
        rw [Reads.listRRsets] at answer
        split at answer
        · cases answer
        · rw [← Reads.Response.rrsets.inj answer]
          exact List.filter_subset_self _
    · cases answer
  · simp only [Reads.respond] at answer
    split at answer
    · split at answer
      · cases answer
      · next domain view =>
        refine ⟨domain, (ofView view).1, (ofView view).2, ?_⟩
        rw [Reads.retrieveRRset] at answer
        split at answer
        · cases answer
        · next found =>
          rw [← Reads.Response.rrset.inj answer]
          intro other inside
          rw [List.mem_singleton.mp inside]
          exact List.mem_of_find?_eq_some found
    · cases answer

end Runs

section Sample

private def server₁₁ : Text := "ns1.example.".toList

private def address₁₁ : Text := "192.0.2.1".toList

/-- A library that knows one name and one address. -/
private def dnspython₁₁ : Dnspython where
  toWire type content :=
    if type = "A".toList ∧ content = address₁₁ then .ok [192, 0, 2, 1]
    else if type = Changes.Pdns.ns ∧ content = server₁₁ then
      .ok [3, 110, 115, 49, 7, 101, 120, 97, 109, 112, 108, 101, 0]
    else .error .needAbsoluteNameOrOrigin
  toText type _ := if type = "A".toList then .ok address₁₁ else .ok server₁₁

private def dns₁₁ : Dns where
  validationTypes := {"A".toList, Changes.Pdns.ns}
  canonical := canonicalPresentationFormat dnspython₁₁
  wire _ content := content
  nameTooLong _ _ := false

private theorem canonicalises₁₁ : Canonicalises dns₁₁ dnspython₁₁ := by
  refine ⟨rfl, fun content type text done => ?_⟩
  simp only [canonicalPresentationFormat, dnspython₁₁] at done
  by_cases isAddress : type = "A".toList
  · subst isAddress
    by_cases known : content = address₁₁
    · subst known
      rw [← Except.ok.inj done]
      rfl
    · simp [known, Changes.Pdns.ns] at done
  · by_cases isServer : type = Changes.Pdns.ns ∧ content = server₁₁
    · obtain ⟨rfl, rfl⟩ := isServer
      rw [← Except.ok.inj done]
      rfl
    · rw [if_neg (fun both => isAddress both.1), if_neg isServer] at done
      cases done

private def site₁₁ : Site where
  unicode := .plain
  dns := dns₁₁
  settings := ⟨[server₁₁], 3600, "catalog.internal.".toList, false, id⟩
  orders := sortedOrders
  contents := sortedOrders.names
  minimumTtl _ := 60
  minimumTtlDefault := 60
  isLocallyRegistrable _ := false
  blockedSubnet _ := false
  isValidName _ := true
  registerLps := true
  parseZonefile _ _ := .ok []
  leaves _ := true

private def name₁₁ : Text := "a.example".toList

private def caller₁₁ : Caller where
  token := ⟨1, 1, none, none, false, false, false, false⟩
  policies := []
  mfaEnabled := false
  domains := {name₁₁}
  limitDomains := none

private def start₁₁ : Database := Finmap.insert name₁₁ (defaultZone site₁₁.settings) ∅

private theorem default₁₁ : DefaultNs site₁₁.settings dns₁₁ dnspython₁₁ := by
  refine ⟨by decide, by decide, fun content member => ?_⟩
  obtain rfl := List.mem_singleton.mp member
  rfl

/-- A request for an address. -/
private def create₁₁ : Call dns₁₁ where
  site := site₁₁
  caller := caller₁₁
  request := .post name₁₁ (.dict [(subnameKey, .str "www".toList), (typeKey, .str "A".toList),
    (ttlKey, .int 60), (recordsKey, .list [.str address₁₁])])
  sameDns := rfl
  onRRsets := rfl

private def shown₁₁ : List RRsetRow :=
  [⟨Changes.Pdns.ns, [], 1, 1, 3600, [server₁₁]⟩, ⟨"A".toList, "www".toList, 2, 2, 60, [address₁₁]⟩]

private def rows₁₁ : List DomainRow := [⟨name₁₁, 1, 1, none, 2, 60, [], [], shown₁₁⟩]

private def reader₁₁ : Reader := ⟨.plain, caller₁₁.token, [], false⟩

/-- Both RRsets are sent as they were listed. -/
private def back₁₁ : Call dns₁₁ where
  site := site₁₁
  caller := caller₁₁
  request := .update false name₁₁ ⟨none, none⟩
    (.list (shown₁₁.map (representation (fun _ => "2024-01-01T00:00:00Z".toList) name₁₁)))
  sameDns := rfl
  onRRsets := rfl

private theorem shows₁₁ : Shows rows₁₁ (run start₁₁ [create₁₁]) := by
  unfold Shows
  decide +kernel

end Sample

end DesecStack.Views.WrittenBack
