/- module: DesecStack/Views/Repeated
   layer: main results
   digest: Updates and deletions of RRsets that are sent again leave the database as it is. -/

import DesecStack.Views.Imported

set_option autoImplicit false
set_option relaxedAutoImplicit false

namespace DesecStack.Views.Repeated

open Library.PyText
open Library.Runs (bind_eq_ok_iff)
open Changes.Models
open Changes.Compute (apiDo sortedOrders)
open Changes.Execution (apiDo_createDomain)
open Records.Fields
open Records.Serializer
open Records.ListSerializer (knownInstance keyOfRow isEmptyRow)
open Records.Save
open Records.Rows (Entries)
open Records.Validated
open Records.Child
open Records.Accepted
open Records.Applied
open Records.TextRows (typeOr_validated)
open Records.Frames
open Records.Values
open Records.BulkExact (Method bulkRequest storedItem validRow_of_mem isEmpty_validated)
open Enforced
open Imported (steps_of_createDomain)
open Writes

/-- The TTL and the records of two validated data are the same. -/
def SameContent (one other : Attrs) : Prop := one.ttl = other.ttl ∧ one.records = other.records

section Validation

variable {ctx ctx' : Context} {root root' : Root} {known known' : Instance} {data : Entries}

/-- What validation shares with another one: the tables, dnspython and the TTL limit. -/
structure SameTables (ctx ctx' : Context) : Prop where
  unicode : ctx.unicode = ctx'.unicode
  dns : ctx.dns = ctx'.dns
  minimumTtl : ctx.minimumTtl = ctx'.minimumTtl

private theorem ttl_unique {one other : Option Int} (same : SameTables ctx ctx')
    (first : runTtl ctx root data = .ok one) (second : runTtl ctx' root' data = .ok other) :
    one = other := by
  rw [runTtl] at first second
  split at first
  · next absent =>
    rw [absent] at second
    dsimp only at second
    split at first
    · split at second
      · exact (Except.ok.inj first).symm.trans (Except.ok.inj second)
      · cases second
    · cases first
  · next value given =>
    rw [given] at second
    dsimp only at second
    rw [← same.unicode, ← same.minimumTtl] at second
    exact Except.ok.inj (first.symm.trans second)

private theorem values_of_runRecords {records : Option (List Text)}
    (done : runRecords ctx root data = .ok records) :
    records = (data.lookup recordsKey).bind fun value => match value with
      | .list items => some (itemValues (items.map runRecord))
      | _ => none := by
  rw [runRecords] at done
  split at done
  · next absent =>
    rw [absent]
    split at done
    · exact (Except.ok.inj done).symm
    · cases done
  · cases done
  · next items given =>
    rw [given]
    dsimp only at done
    split at done
    · rw [andThen, validateRecords] at done
      split at done
      · cases done
      · exact (Except.ok.inj done).symm
    · cases done
  · cases done

private theorem content_unique {one other : Attrs} {type : Text} (same : SameTables ctx ctx')
    (first : runValidation ctx root known data = .ok one)
    (second : runValidation ctx' root' known' data = .ok other)
    (typed : typeOr known one = .ok type) (typed' : typeOr known' other = .ok type) :
    SameContent one other := by
  simp only [runValidation, bind_eq_ok_iff] at first second
  obtain ⟨fields, converted, -, -, final⟩ := first
  obtain ⟨fields', converted', -, -, final'⟩ := second
  obtain ⟨-, records, ttl, -⟩ := fields_of_toInternalValue converted
  obtain ⟨-, records', ttl', -⟩ := fields_of_toInternalValue converted'
  obtain ⟨-, sameType, sameTtl, none_iff, -⟩ := fields_of_validate final
  obtain ⟨-, sameType', sameTtl', none_iff', -⟩ := fields_of_validate final'
  constructor
  · rw [sameTtl, sameTtl', ttl_unique same ttl ttl']
  · have sameRecords : fields.records = fields'.records :=
      (values_of_runRecords records).trans (values_of_runRecords records').symm
    cases given : fields.records with
    | none => rw [none_iff.mpr given, none_iff'.mpr (sameRecords ▸ given)]
    | some values =>
      simp only [validate, bind_eq_ok_iff, pure, Except.pure, Except.ok.injEq] at final final'
      obtain ⟨type₁, isType, contents, done, -, -, rfl⟩ := final
      obtain ⟨type₂, isType', contents', done', -, -, rfl⟩ := final'
      obtain rfl : type₁ = type := Except.ok.inj (isType.symm.trans typed)
      obtain rfl : type₂ = type₁ := Except.ok.inj (isType'.symm.trans typed')
      obtain ⟨forms, rfl, canonical⟩ := forms_of_validateContents given done
      obtain ⟨forms', rfl, canonical'⟩ := forms_of_validateContents (sameRecords ▸ given) done'
      rw [← same.dns] at canonical'
      exact congrArg some (List.right_unique_forall₂'
        (fun _ _ _ form form' => Except.ok.inj (form.symm.trans form')) canonical canonical')

end Validation

section Outcomes

variable {env : Env} {request request' : Records.ListSerializer.Request} {rows : List Json}
  {data : Entries} {before after again : Option RRset}

private theorem ttlAfter_ttlAfter (old : Nat) (ttl : Option Int) :
    ttlAfter (ttlAfter old ttl) ttl = ttlAfter old ttl := by
  cases ttl with
  | none => rfl
  | some n =>
    by_cases zero : n = 0
    · simp [ttlAfter, zero]
    · simp [ttlAfter, zero]

private theorem updated_of_updated {item : Item} {attrs attrs' : Attrs} {old rrset : RRset}
    (same : SameContent attrs attrs') (first : Updated env item attrs old (some rrset))
    (second : Updated env item attrs' rrset again) : again = some rrset := by
  obtain ⟨new, clean, kept, isNew⟩ := first
  obtain ⟨newer, cleanAgain, keptAgain, rfl⟩ := second
  obtain rfl := Option.some.inj isNew
  rw [← same.1, ttlAfter_ttlAfter]
  cases given : attrs.records with
  | none => rw [keptAgain (same.2 ▸ given)]
  | some records =>
    have clean := clean records given
    have cleanAgain := cleanAgain records (same.2 ▸ given)
    rw [Except.ok.inj (clean.symm.trans cleanAgain)]

private theorem updated_of_created {item : Item} {attrs attrs' : Attrs} {rrset : RRset}
    (same : SameContent attrs attrs') (first : Created env item attrs (some rrset))
    (second : Updated env item attrs' rrset again) : again = some rrset := by
  obtain ⟨records, ttl, new, isRecords, isTtl, -, clean, isNew⟩ := first
  obtain ⟨newer, cleanAgain, -, rfl⟩ := second
  obtain rfl := Option.some.inj isNew
  have cleanAgain := cleanAgain records (same.2 ▸ isRecords)
  rw [← same.1, isTtl, Except.ok.inj (clean.symm.trans cleanAgain)]
  by_cases zero : ttl = 0
  · simp [ttlAfter, zero]
  · simp [ttlAfter, zero]

private theorem settled_of_outcome (member : data ∈ entries rows)
    (first : Outcome env request rows data before after)
    (second : Outcome env request' rows data after again)
    (same : ∀ rrset, after = some rrset → ∀ other ∈ entries rows,
      storedItem other = storedItem data →
        SameContent (validated request other) (validated request' data)) : again = after := by
  cases after with
  | none =>
    cases empty : isEmptyRow data with
    | true => exact second.skipped rfl data member rfl empty
    | false =>
      -- a row with records leaves nothing only beside an empty row for the same RRset
      have emptied : ∃ other ∈ entries rows, storedItem other = storedItem data ∧
          isEmptyRow other = true := by
        by_contra unsaid
        push Not at unsaid
        cases before with
        | some old =>
          obtain ⟨new, -, -, absurd⟩ := first.updated old rfl empty
          cases absurd
        | none =>
          obtain ⟨other, -, -, created⟩ := first.created rfl fun other there same =>
            Bool.eq_false_iff.mpr (unsaid other there same)
          obtain ⟨records, ttl, new, -, -, -, -, absurd⟩ := created
          cases absurd
      obtain ⟨other, there, isSame, isEmpty⟩ := emptied
      exact second.skipped rfl other there isSame isEmpty
  | some rrset =>
    have filled : isEmptyRow data = false := by
      by_contra empty
      rw [Bool.not_eq_false] at empty
      cases before with
      | some old => cases first.emptied old rfl empty
      | none => cases first.skipped rfl data member rfl empty
    have updated := second.updated rrset rfl filled
    cases before with
    | some old =>
      exact updated_of_updated (same rrset rfl data member rfl)
        (first.updated old rfl filled) updated
    | none =>
      have all (other : Entries) (there : other ∈ entries rows)
          (isSame : storedItem other = storedItem data) : isEmptyRow other = false := by
        by_contra empty
        have nothing := first.skipped rfl other there isSame (Bool.not_eq_false _ ▸ empty)
        cases nothing
      obtain ⟨other, there, isSame, created⟩ := first.created rfl all
      exact updated_of_created (same rrset rfl other there isSame) created updated

end Outcomes

section Lists

variable {site : Site} {name : Text} {method : Method} {ctx ctx' : Context}
  {selected selected' : Finset Item} {db : Database} {first second : Session} {data : Json}

/-- The context of a list view on a database. -/
structure ListView (site : Site) (name : Text) (ctx : Context) (selected : Finset Item)
    (db : Database) : Prop where
  stored : db.lookup name = some ctx.rrsets
  unicode : ctx.unicode = site.unicode
  dns : ctx.dns = site.dns
  selectable : selected ⊆ ctx.rrsets.keys

private theorem content_of_rows {rows : List Json} (same : SameTables ctx ctx')
    (valid : Valid (bulkRequest method ctx selected) rows)
    (valid' : Valid (bulkRequest method ctx' selected') rows) {row : Entries}
    (member : row ∈ entries rows) : SameContent (validated (bulkRequest method ctx selected) row)
      (validated (bulkRequest method ctx' selected') row) := by
  obtain ⟨-, -, -, done⟩ := valid.of_mem member
  obtain ⟨-, -, -, done'⟩ := valid'.of_mem member
  have tables : SameTables (bulkRequest method ctx selected).ctx
      (bulkRequest method ctx' selected').ctx := ⟨same.unicode, same.dns, same.minimumTtl⟩
  exact content_unique tables done done' (typeOr_validated valid member)
    (typeOr_validated valid' member)

private theorem settled_of_saveMany (one : ListView site name ctx selected db)
    (other : ListView site name ctx' selected' first.db)
    (minimum : ctx.minimumTtl = ctx'.minimumTtl)
    (done : saveMany site name ctx method selected ⟨db, []⟩ data = .ok first)
    (again : saveMany site name ctx' method selected' ⟨first.db, []⟩ data = .ok second)
    (d : Text) (item : Item) : value second.db d item = value first.db d item := by
  obtain ⟨rows, rfl, valid, checked, saved⟩ := rows_of_saveMany done
  obtain ⟨_, isList, valid', checked', saved'⟩ := rows_of_saveMany again
  obtain rfl := Json.list.inj isList
  by_contra differs
  obtain ⟨_, isList, -, confined⟩ := spec_of_saveMany again
  obtain rfl := Json.list.inj isList
  obtain ⟨rfl, -, row, inRows, entries', shaped, named⟩ := confined d item differs
  have member : entries' ∈ entries rows :=
    List.mem_filterMap.mpr ⟨row, inRows, by rw [shaped]; rfl⟩
  have isItem : storedItem entries' = item := by
    rw [storedItem, named]
    rfl
  subst isItem
  have agrees : Records.BulkExact.Agrees (envOf site d) ctx ⟨db, []⟩ :=
    ⟨one.unicode.symm, one.stored⟩
  have agrees' : Records.BulkExact.Agrees (envOf site d) ctx' ⟨first.db, []⟩ :=
    ⟨other.unicode.symm, other.stored⟩
  have outcome := outcome_of_save agrees one.selectable valid checked saved member
  have outcome' := outcome_of_save agrees' other.selectable valid' checked' saved' member
  apply differs
  apply settled_of_outcome member outcome outcome'
  intro rrset found row' there same
  obtain rfl := unique_of_stored valid' agrees' checked' member there same found
  exact content_of_rows ⟨one.unicode.trans other.unicode.symm,
    one.dns.trans other.dns.symm, minimum⟩
    valid valid' member

end Lists

section Requests

variable {site : Site} {caller : Caller} {db first second : Database} {name : Text}

/-- An accepted request leaves a database in which sending it again has no effect. -/
def Settles (first second : Database) : Prop := ∀ d item, value second d item = value first d item

theorem listView_contextOf {rrsets : RRsets} {selected : Finset Item} {minimumTtl : Nat}
    {isPost : Bool} (stored : db.lookup name = some rrsets) (selectable : selected ⊆ rrsets.keys) :
    ListView site name (contextOf site caller name rrsets minimumTtl isPost none) selected db :=
  ⟨stored, rfl, rfl, selectable⟩

private theorem sameTables_contextOf {rrsets rrsets' : RRsets} {minimumTtl : Nat} {isPost : Bool}
    {subnameKwarg : Option Text} :
    SameTables (contextOf site caller name rrsets minimumTtl isPost subnameKwarg)
      (contextOf site caller name rrsets' minimumTtl isPost subnameKwarg) :=
  ⟨rfl, rfl, rfl⟩

private theorem settles_of_updateMany {isPartial : Bool} {query : Query} {data : Json}
    (done : updateMany site caller db isPartial name query data = .ok first)
    (again : updateMany site caller first isPartial name query data = .ok second) :
    Settles first second := by
  simp only [updateMany, bind_eq_ok_iff] at done again
  obtain ⟨rrsets, view, selected, chosen, done⟩ := done
  obtain ⟨rrsets', view', selected', chosen', again⟩ := again
  obtain ⟨session, saving, rfl⟩ := db_of_committed done
  obtain ⟨session', saving', rfl⟩ := db_of_committed again
  exact settled_of_saveMany
    (listView_contextOf (lookup_of_rrsetView view) (subset_of_queryset chosen))
    (listView_contextOf (lookup_of_rrsetView view') (subset_of_queryset chosen')) rfl saving saving'

private theorem settles_of_dynDnsSave {subnames : List Text} {rows : List (Item × List Text)}
    (done : dynDnsSave site caller db name subnames rows = .ok first)
    (again : dynDnsSave site caller first name subnames rows = .ok second) :
    Settles first second := by
  simp only [dynDnsSave, bind_eq_ok_iff] at done again
  obtain ⟨rrsets, view, done⟩ := done
  obtain ⟨rrsets', view', again⟩ := again
  obtain ⟨session, saving, rfl⟩ := db_of_committed done
  obtain ⟨session', saving', rfl⟩ := db_of_committed again
  exact settled_of_saveMany
    (listView_contextOf (lookup_of_domain view) (Finset.filter_subset _ _))
    (listView_contextOf (lookup_of_domain view') (Finset.filter_subset _ _)) rfl saving saving'

theorem validated_of_saveOne {ctx : Context} {isPartial : Bool} {known : Instance} {data : Json}
    (done : saveOne site db name ctx isPartial known data = .ok first) :
    ∃ entries attrs session, data = .dict entries ∧
      runValidation ctx ⟨false, isPartial⟩ known entries = .ok attrs ∧
      conditionalSave (envOf site name) ⟨db, []⟩ known attrs = .ok session ∧
      session.db = first := by
  unfold saveOne at done
  split at done
  · next entries =>
    split at done
    · cases done
    · next attrs valid =>
      obtain ⟨session, saving, same⟩ := db_of_committed done
      exact ⟨entries, attrs, session, rfl, valid, ok_of_saved saving, same⟩
  · cases done

/-- One RRset that has been created cannot be created again. -/
theorem settles_of_post {data : Json} (done : post site caller db name data = .ok first)
    (again : post site caller first name data = .ok second) : Settles first second := by
  simp only [post, bind_eq_ok_iff] at done again
  obtain ⟨rrsets, view, done⟩ := done
  obtain ⟨rrsets', view', again⟩ := again
  split at done
  · next rows =>
    obtain ⟨session, saving, rfl⟩ := db_of_committed done
    obtain ⟨session', saving', rfl⟩ := db_of_committed again
    exact settled_of_saveMany
      (listView_contextOf (lookup_of_rrsetView view) (Finset.empty_subset _))
      (listView_contextOf (lookup_of_rrsetView view') (Finset.empty_subset _)) rfl saving saving'
  · obtain ⟨entries, attrs, session, rfl, valid, saving, rfl⟩ := validated_of_saveOne done
    obtain ⟨_, attrs', session', isData, valid', -, -⟩ := validated_of_saveOne again
    obtain rfl := Json.dict.inj isData
    obtain ⟨named, -⟩ := named_of_runValidation rfl valid
    obtain ⟨named', -⟩ := named_of_runValidation rfl valid'
    have nonempty : isEmpty attrs = false :=
      decide_eq_false ((validChild_of_runValidation valid).nonempty rfl)
    simp only [conditionalSave, nonempty] at saving
    obtain ⟨-, records, ttl, new, -, -, -, -, stored⟩ := created_of_create saving
    have lookup := lookup_of_rrsetView view'
    simp only [runValidation, bind_eq_ok_iff] at valid'
    obtain ⟨fields, -, _, checked, final⟩ := valid'
    obtain ⟨sameSubname, sameType, -⟩ := fields_of_validate final
    obtain ⟨hasSubname, hasType, isNew⟩ := key_of_runValidators rfl checked
    obtain ⟨subname, isSubname⟩ := Option.isSome_iff_exists.mp hasSubname
    obtain ⟨type, isType⟩ := Option.isSome_iff_exists.mp (hasType.resolve_right (by simp))
    have fresh := isNew rfl subname type isSubname isType
    have isKey : keyOf attrs = (type, subname) := by
      rw [Option.some.inj (named.symm.trans named'), keyOf, sameType, sameSubname, isType,
        isSubname]
      rfl
    rw [isKey] at stored
    refine absurd (Finmap.mem_keys.mpr (Finmap.lookup_isSome.mp ?_)) fresh
    have found : (session.db.lookup name).bind (fun rrsets => rrsets.lookup (type, subname)) =
        some ⟨ttl.toNat, new⟩ := stored
    rw [lookup, Option.bind_some] at found
    rw [contextOf, found]
    rfl

theorem value_of_detailObject {rrsets : RRsets} {item : Item} {rrset : RRset}
    (stored : db.lookup name = some rrsets)
    (object : detailObject caller name rrsets item = .ok rrset) :
    value db name item = some rrset := by
  rw [detailObject] at object
  rw [value, stored, Option.bind_some]
  split at object
  · cases object
  · next found =>
    split at object
    · rw [found, Except.ok.inj object]
    · cases object

private theorem settles_of_updateDetail {isPartial : Bool} {item : Item} {data : Json}
    (done : updateDetail site caller db isPartial name item data = .ok first)
    (again : updateDetail site caller first isPartial name item data = .ok second) :
    Settles first second := by
  simp only [updateDetail, bind_eq_ok_iff] at done again
  obtain ⟨rrsets, view, rrset, object, done⟩ := done
  obtain ⟨rrsets', view', rrset', object', again⟩ := again
  have found := value_of_detailObject (lookup_of_rrsetView view) object
  have found' := value_of_detailObject (lookup_of_rrsetView view') object'
  obtain ⟨entries, attrs, session, rfl, valid, saving, rfl⟩ := validated_of_saveOne done
  obtain ⟨_, attrs', session', isData, valid', saving', rfl⟩ := validated_of_saveOne again
  obtain rfl := Json.dict.inj isData
  intro d other
  by_contra differs
  obtain ⟨rfl, rfl⟩ := confined_of_conditionalSave rfl saving' d other differs
  apply differs
  have same : SameContent attrs attrs' :=
    content_unique (sameTables_contextOf ..) valid valid'
      (validChild_of_runValidation valid).typeOr_known
      (validChild_of_runValidation valid').typeOr_known
  cases empty : isEmpty attrs with
  | true =>
    simp only [conditionalSave, empty] at saving
    have gone : value session.db d other = none := (value_of_delete saving).2
    rw [gone] at found'
    cases found'
  | false =>
    have empty' : isEmpty attrs' = false := by
      rwa [isEmpty, ← same.2]
    simp only [conditionalSave, empty] at saving
    simp only [conditionalSave, empty'] at saving'
    have updated : Updated (envOf site d) other attrs rrset (value session.db d other) :=
      updated_of_update found saving
    rw [found'] at updated ⊢
    have read : value (Session.mk session.db []).db (envOf site d).name other
      = some rrset' := found'
    exact updated_of_updated same updated (updated_of_update read saving')

private theorem settles_of_destroyDetail {item : Item}
    (done : destroyDetail site caller db name item = .ok first)
    (again : destroyDetail site caller first name item = .ok second) :
    Settles first second := by
  have deleted {before after : Database}
      (done : destroyDetail site caller before name item = .ok after) : after = before ∨
        (∃ rrset, value before name item = some rrset) ∧ value after name item = none := by
    unfold destroyDetail at done
    dsimp only at done
    split at done
    · exact .inl (Except.ok.inj done).symm
    · simp only [bind_eq_ok_iff] at done
      obtain ⟨rrsets, view, rrset, object, done⟩ := done
      split at done
      · cases done
      · obtain ⟨session, saving, rfl⟩ := db_of_committed done
        exact .inr (value_of_delete (ok_of_saved saving))
  obtain rfl | ⟨⟨rrset, there⟩, -⟩ := deleted again
  · exact fun _ _ => rfl
  · obtain rfl | ⟨-, gone⟩ := deleted done
    · rw [Except.ok.inj (done.symm.trans again)]
      exact fun _ _ => rfl
    · rw [gone] at there
      cases there

/-- A domain that has been created cannot be created again. -/
theorem settles_of_createDomain {zonefile : Option Text}
    (done : createDomain site caller db name zonefile = .ok first)
    (again : createDomain site caller first name zonefile = .ok second) :
    Settles first second := by
  obtain ⟨-, _, _, _, _, -, -, -, applied⟩ := steps_of_createDomain done
  obtain ⟨absent, -⟩ := steps_of_createDomain again
  obtain ⟨-, values, -, -⟩ := apiDo_createDomain applied
  have ns := values Changes.Compute.nsItem
  rw [if_pos rfl, value, absent] at ns
  cases ns

/-- A request that is accepted twice in a row changes nothing the second time. -/
theorem repeated_unchanged (site : Site) (caller : Caller) (db first second : Database)
    (request : WriteRequest) (done : handle site caller db request = .ok first)
    (again : handle site caller first request = .ok second) (d : Text) (item : Item) :
    value second d item = value first d item := by
  cases request with
  | post name data => exact settles_of_post done again d item
  | update isPartial name query data => exact settles_of_updateMany done again d item
  | updateDetail isPartial name item' data => exact settles_of_updateDetail done again d item
  | destroyDetail name item' => exact settles_of_destroyDetail done again d item
  | dynDns name subnames rows => exact settles_of_dynDnsSave done again d item
  | createDomain name zonefile => exact settles_of_createDomain done again d item

end Requests

section Sample

private def dns₄ : Dns where
  validationTypes := {"A".toList, "TXT".toList}
  canonical content _ := .ok content
  wire _ content := content
  nameTooLong _ _ := false

private def site₄ : Site where
  unicode := .plain
  dns := dns₄
  settings := ⟨["ns1.example.".toList], 3600, "catalog.internal.".toList, false, id⟩
  orders := sortedOrders
  contents := sortedOrders.names
  minimumTtl _ := 60
  minimumTtlDefault := 60
  isLocallyRegistrable _ := false
  blockedSubnet _ := false
  isValidName _ := true
  registerLps := true
  parseZonefile _ _ := .ok []
  leaves _ := true

private def caller₄ : Caller where
  token := ⟨1, 1, none, none, false, false, false, false⟩
  policies := []
  mfaEnabled := false
  domains := {"a.test".toList}
  limitDomains := none

private def db₄ : Database :=
  Finmap.insert "a.test".toList
    (Finmap.insert ("TXT".toList, []) ⟨3600, {"gone".toList}⟩
      (Finmap.insert ("A".toList, []) ⟨3600, {"192.0.2.1".toList}⟩ ∅)) ∅

private def row₄ (type subname : String) (records : List String) : Json :=
  .dict [(typeKey, .str type.toList), (subnameKey, .str subname.toList), (ttlKey, .int 60),
    (recordsKey, .list (records.map fun content => .str content.toList))]

/-- One RRset is changed, one is deleted, and one is new. -/
private def request₄ : WriteRequest :=
  .update true "a.test".toList ⟨none, none⟩
    (.list [row₄ "A" "" ["192.0.2.2"], row₄ "TXT" "" [], row₄ "A" "www" ["192.0.2.3"]])

theorem repeated_unchanged_patch : ∃ first second,
    handle site₄ caller₄ db₄ request₄ = .ok first ∧
    handle site₄ caller₄ first request₄ = .ok second ∧
    value first "a.test".toList ("A".toList, "www".toList) = some ⟨60, {"192.0.2.3".toList}⟩ ∧
    ∀ d item, value second d item = value first d item := by
  have runs : ((handle site₄ caller₄ db₄ request₄).bind fun first =>
      (handle site₄ caller₄ first request₄).map fun _ =>
        value first "a.test".toList ("A".toList, "www".toList)).toOption =
      some (some ⟨60, {"192.0.2.3".toList}⟩) := by
    decide +kernel
  cases done : handle site₄ caller₄ db₄ request₄ with
  | error refusal => rw [done] at runs; cases runs
  | ok first =>
    rw [done, Except.bind] at runs
    cases again : handle site₄ caller₄ first request₄ with
    | error refusal => rw [again] at runs; cases runs
    | ok second =>
      rw [again] at runs
      exact ⟨first, second, rfl, again, Option.some.inj runs,
        repeated_unchanged site₄ caller₄ db₄ first second request₄ done again⟩

end Sample

end DesecStack.Views.Repeated
