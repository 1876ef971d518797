/- module: DesecStack/Views/Enforced
   layer: main results
   digest: Requests change only RRsets that the policies of their token permit to write. -/

import DesecStack.Records.Child
import DesecStack.Records.Frames
import DesecStack.Views.Writes

set_option autoImplicit false
set_option relaxedAutoImplicit false

namespace DesecStack.Views.Enforced

open Library.PyText
open Library.Surrogates (Str)
open Library.Runs (bind_eq_ok_iff)
open Changes.Models
open Changes.Compute (apiDo nsItem)
open Records.Fields
open Records.Serializer
open Records.ListSerializer (shape)
open Records.Save
open Records.Rows (Entries readKey)
open Records.Validated
open Records.Child
open Records.Accepted
open Records.Frames
open Records.BulkExact (Method bulkRequest save storedItem validRow_of_mem keyOf_validated)
open Tokens.Policies
open Writes

/-- The policy in effect for an RRset, if there is one, permits to write it. -/
def Permits (policies : List TokenDomainPolicy) (rrset : RRsetKey) : Prop :=
  ∀ policy, getPolicy policies (some rrset) = some policy → policy.permWrite = true

private theorem permits_iff {policies : List TokenDomainPolicy} {rrset : RRsetKey} :
    tokenHasRRsetPermission policies rrset = true ↔ Permits policies rrset := by
  unfold tokenHasRRsetPermission Permits
  cases getPolicy policies (some rrset) <;> simp

/-- The RRset that data for one RRset is about. The subname is that of the apex by default. -/
def namedItem (entries : Entries) : Option Item := do
  let type ← (entries.lookup typeKey).bind Json.scalar
  let subname ← ((entries.lookup subnameKey).getD (.str [])).scalar
  pure (← type.strip.toText, ← subname.strip.toText)

/-- The RRset that a row of a list is about. -/
def RowNames (row : Json) (item : Item) : Prop :=
  ∃ entries, shape row = .ok entries ∧
    readKey Str.strip entries = (some (.text item.2), some (.text item.1))

/-- The RRsets that a request is about. -/
def Names (site : Site) : WriteRequest → Text → Item → Prop
  | .post name (.list rows), d, i => d = name ∧ ∃ row ∈ rows, RowNames row i
  | .post name (.dict entries), d, i => d = name ∧ namedItem entries = some i
  | .update _ name _ (.list rows), d, i => d = name ∧ ∃ row ∈ rows, RowNames row i
  | .updateDetail _ name item _, d, i => d = name ∧ i = item
  | .destroyDetail name item, d, i => d = name ∧ i = item
  | .dynDns name _ rows, d, i => d = name ∧ ∃ row ∈ rows, RowNames (dynDnsRow row) i
  | .createDomain name zonefile, d, i => d = name ∧ ∃ rrsets,
      zoneRRsets site name zonefile = .ok rrsets ∧
        ∃ rrset ∈ rrsets, RowNames (zoneRow site.minimumTtlDefault rrset) i
  | .post _ _, _, _ | .update _ _ _ _, _, _ => False

/-- A list that is saved has valid rows, and what is saved is their validated data. -/
theorem rows_of_saveMany {site : Site} {name : Text} {ctx : Context} {method : Method}
    {selected : Finset Item} {session session' : Session} {data : Json}
    (done : saveMany site name ctx method selected session data = .ok session') :
    ∃ rows, data = .list rows ∧ Valid (bulkRequest method ctx selected) rows ∧
      Checked (bulkRequest method ctx selected) rows ∧
      save (envOf site name) method session selected
        ((entries rows).map (validated (bulkRequest method ctx selected))) = .ok session' := by
  unfold saveMany at done
  split at done
  · exact absurd done (by simp)
  · next result accepted =>
    cases data with
    | list rows =>
      obtain ⟨valid, checked, rfl⟩ := toInternalValue_ok_iff.mp accepted
      refine ⟨rows, rfl, valid, checked, ?_⟩
      unfold saved at done
      split at done
      · exact absurd done (by simp)
      · next saving => rw [saving, Except.ok.inj done]
    | _ => simp [Records.ListSerializer.toInternalValue] at accepted

/-- A list of rows that is saved is about permitted RRsets only, and changes only these. -/
theorem spec_of_saveMany {site : Site} {name : Text} {ctx : Context} {method : Method}
    {selected : Finset Item} {session session' : Session} {data : Json}
    (done : saveMany site name ctx method selected session data = .ok session') :
    ∃ rows, data = .list rows ∧
      (∀ row ∈ rows, ∀ item, RowNames row item → ctx.hasObjectPermission item = true) ∧
      Confined name (fun item => ctx.hasObjectPermission item = true ∧ ∃ row ∈ rows,
        RowNames row item) session.db session'.db := by
  obtain ⟨rows, isList, valid, -, saving⟩ := rows_of_saveMany done
  refine ⟨rows, isList, ?_, ?_⟩
  · rintro row member item ⟨entries, shaped, names⟩
    obtain ⟨other, attrs, ok, validated⟩ := valid row member
    obtain rfl := Except.ok.inj (shaped.symm.trans ok)
    obtain ⟨stored, validRow⟩ := validRow_of_validateRow rfl shaped validated
    have same : stored = item := by
      have both := validRow.trimmed.symm.trans names
      simp only [Prod.mk.injEq, Option.some.injEq, Str.text.injEq] at both
      exact Prod.ext both.2 both.1
    exact same ▸ validRow.permitted
  · have allowed : ∀ attrs ∈ (entries rows).map (validated (bulkRequest method ctx selected)),
        ctx.hasObjectPermission (keyOf attrs) = true ∧ ∃ row ∈ rows,
          RowNames row (keyOf attrs) := by
      intro attrs member
      obtain ⟨data, there, rfl⟩ := List.mem_map.mp member
      obtain ⟨row, inRows, shaped, -⟩ := valid.of_mem there
      rw [keyOf_validated rfl valid there]
      have validRow := validRow_of_mem rfl valid there
      exact ⟨validRow.permitted, row, inRows, data, shaped, validRow.trimmed⟩
    cases method with
    | post => exact confined_of_listCreate allowed saving
    | patch => exact confined_of_listUpdate allowed saving
    | put => exact confined_of_listUpdate allowed saving

/-- Data of a new RRset that is valid is about an RRset that may be written. -/
theorem named_of_runValidation {ctx : Context} {entries : Entries} {attrs : Attrs}
    (listView : ctx.subnameKwarg = none)
    (done : runValidation ctx ⟨false, false⟩ none entries = .ok attrs) :
    namedItem entries = some (keyOf attrs) ∧ ctx.hasObjectPermission (keyOf attrs) = true := by
  simp only [runValidation, bind_eq_ok_iff] at done
  obtain ⟨fields, converted, _, checked, final⟩ := done
  obtain ⟨subnameDone, -, -, typeDone⟩ := fields_of_toInternalValue converted
  obtain ⟨sameSubname, sameType, -⟩ := fields_of_validate final
  obtain ⟨subname, type, given, wanted, allowed⟩ := permitted_of_runValidators checked
  have isSubname : fields.subname = some subname := by
    unfold subnameOr at given
    split at given
    · next found => rw [found, Except.ok.inj given]
    · next found => simp [listView] at found
    · exact absurd given (by simp)
  have isType : fields.type = some type := by
    unfold typeOr at wanted
    split at wanted
    · next found => rw [found, Except.ok.inj wanted]
    · next found _ => simp at found
    · exact absurd wanted (by simp)
  have isKey : keyOf attrs = (type, subname) := by
    simp [keyOf, sameSubname, sameType, isSubname, isType]
  rw [isKey]
  refine ⟨?_, allowed⟩
  have readType : ((entries.lookup typeKey).bind Json.scalar).map Str.strip
      = some (.text type) := by
    rw [isType] at typeDone
    unfold runType at typeDone
    split at typeDone
    · exact absurd typeDone (by simp [fail])
    · next value found =>
      obtain ⟨inner, ran, own⟩ := andThen_ok typeDone
      rw [value_of_validateType own, found]
      exact charField_ok ran
  have readSubname : (((entries.lookup subnameKey).getD (.str [])).scalar).map Str.strip
      = some (.text subname) := by
    rw [isSubname] at subnameDone
    unfold runSubname at subnameDone
    split at subnameDone
    · next absent =>
      simp only [Bool.false_eq_true, if_false, Option.isSome_none, Bool.or_self] at subnameDone
      rw [value_of_validateSubname subnameDone, absent]
      rfl
    · next value found =>
      obtain ⟨inner, ran, own⟩ := andThen_ok subnameDone
      rw [value_of_validateSubname own, found]
      exact charField_ok ran
  obtain ⟨rawType, isRawType, trimmedType⟩ := Option.map_eq_some_iff.mp readType
  obtain ⟨rawSubname, isRawSubname, trimmedSubname⟩ := Option.map_eq_some_iff.mp readSubname
  simp [namedItem, isRawType, isRawSubname, trimmedType, trimmedSubname]

theorem db_of_committed {site : Site} {result : Except Refusal Session} {db : Database}
    (done : committed site result = .ok db) :
    ∃ session, result = .ok session ∧ session.db = db := by
  unfold committed at done
  split at done
  · exact absurd done (by simp)
  · split at done
    · exact ⟨_, rfl, Except.ok.inj done⟩
    · exact absurd done (by simp)

theorem ok_of_saved {result : Saved} {session : Session} (done : saved result = .ok session) :
    result = .ok session := by
  cases result <;> simp_all [saved]

theorem confined_of_conditionalSave {env : Env} {session session' : Session}
    {instance? : Instance} {attrs : Attrs} {item : Item}
    (same : (instance?.map Prod.fst).getD (keyOf attrs) = item)
    (done : conditionalSave env session instance? attrs = .ok session') :
    Confined env.name (· = item) session.db session'.db := by
  unfold conditionalSave at done
  split at done
  · exact confined_of_update (by simpa using same) done
  · exact confined_of_delete (by simpa using same) done
  · exact confined_of_create (by simpa using same) done
  · rw [← Except.ok.inj done]
    exact Confined.refl _ _ _

section Requests

variable {site : Site} {caller : Caller} {db db' : Database}

/-- A request that has an effect is about permitted RRsets only, and it changes only RRsets that
it is about, apart from the default NS RRset of a new domain. -/
structure Enforces (site : Site) (caller : Caller) (db db' : Database) (request : WriteRequest) :
    Prop where
  permitted (d : Text) (i : Item) (named : Names site request d i) :
    db' = db ∨ Permits caller.policies (d, i)
  changed (d : Text) (i : Item) (differs : value db' d i ≠ value db d i) :
    Names site request d i ∨ ∃ zonefile, request = .createDomain d zonefile ∧ i = nsItem

private theorem enforced_post {name : Text} {data : Json}
    (done : post site caller db name data = .ok db') :
    Enforces site caller db db' (.post name data) := by
  simp only [post, bind_eq_ok_iff] at done
  obtain ⟨rrsets, -, done⟩ := done
  split at done
  · next rows =>
    obtain ⟨session, many, rfl⟩ := db_of_committed done
    obtain ⟨_, same, permitted, confined⟩ := spec_of_saveMany many
    obtain rfl := (Json.list.inj same).symm
    constructor
    · rintro d i ⟨rfl, row, member, names⟩
      exact Or.inr (permits_iff.mp (permitted row member i names))
    · intro d i differs
      obtain ⟨rfl, -, named⟩ := confined d i differs
      exact Or.inl ⟨rfl, named⟩
  · next isSingle =>
    unfold saveOne at done
    split at done
    · next entries =>
      split at done
      · exact absurd done (by simp)
      · next attrs valid =>
        obtain ⟨session, single, rfl⟩ := db_of_committed done
        obtain ⟨named, allowed⟩ := named_of_runValidation rfl valid
        have confined := confined_of_conditionalSave rfl (ok_of_saved single)
        constructor
        · rintro d i ⟨rfl, names⟩
          obtain rfl := Option.some.inj (named.symm.trans names)
          exact Or.inr (permits_iff.mp allowed)
        · intro d i differs
          obtain ⟨rfl, rfl⟩ := confined d i differs
          exact Or.inl ⟨rfl, named⟩
    · exact absurd done (by simp)

private theorem enforced_update {isPartial : Bool} {name : Text} {query : Query} {data : Json}
    (done : updateMany site caller db isPartial name query data = .ok db') :
    Enforces site caller db db' (.update isPartial name query data) := by
  simp only [updateMany, bind_eq_ok_iff] at done
  obtain ⟨rrsets, -, selected, -, done⟩ := done
  obtain ⟨session, many, rfl⟩ := db_of_committed done
  obtain ⟨rows, rfl, permitted, confined⟩ := spec_of_saveMany many
  constructor
  · rintro d i ⟨rfl, row, member, names⟩
    exact Or.inr (permits_iff.mp (permitted row member i names))
  · intro d i differs
    obtain ⟨rfl, -, named⟩ := confined d i differs
    exact Or.inl ⟨rfl, named⟩

private theorem permitted_of_detailObject {name : Text} {rrsets : RRsets} {item : Item}
    {rrset : RRset}
    (found : detailObject caller name rrsets item = .ok rrset) :
    Permits caller.policies (name, item) := by
  unfold detailObject at found
  split at found
  · exact absurd found (by simp)
  · split at found
    · next allowed => exact permits_iff.mp allowed
    · exact absurd found (by simp)

private theorem enforced_updateDetail {isPartial : Bool} {name : Text} {item : Item} {data : Json}
    (done : updateDetail site caller db isPartial name item data = .ok db') :
    Enforces site caller db db' (.updateDetail isPartial name item data) := by
  simp only [updateDetail, bind_eq_ok_iff] at done
  obtain ⟨rrsets, -, rrset, found, done⟩ := done
  have allowed := permitted_of_detailObject found
  unfold saveOne at done
  split at done
  · split at done
    · exact absurd done (by simp)
    · obtain ⟨session, single, rfl⟩ := db_of_committed done
      have confined := confined_of_conditionalSave rfl (ok_of_saved single)
      constructor
      · rintro d i ⟨rfl, rfl⟩
        exact Or.inr allowed
      · intro d i differs
        obtain ⟨rfl, rfl⟩ := confined d i differs
        exact Or.inl ⟨rfl, rfl⟩
  · exact absurd done (by simp)

private theorem enforced_destroyDetail {name : Text} {item : Item}
    (done : destroyDetail site caller db name item = .ok db') :
    Enforces site caller db db' (.destroyDetail name item) := by
  unfold destroyDetail at done
  dsimp only at done
  split at done
  · obtain rfl := Except.ok.inj done
    exact ⟨fun d i _ => Or.inl rfl, fun d i differs => absurd rfl differs⟩
  · simp only [bind_eq_ok_iff] at done
    obtain ⟨rrsets, -, rrset, found, done⟩ := done
    split at done
    · exact absurd done (by simp)
    · obtain ⟨session, deleted, rfl⟩ := db_of_committed done
      have confined : Confined name (· = item) db session.db :=
        confined_of_delete (by rfl) (ok_of_saved deleted)
      constructor
      · rintro d i ⟨rfl, rfl⟩
        exact Or.inr (permitted_of_detailObject found)
      · intro d i differs
        obtain ⟨rfl, rfl⟩ := confined d i differs
        exact Or.inl ⟨rfl, rfl⟩

private theorem enforced_dynDns {name : Text} {subnames : List Text}
    {rows : List (Item × List Text)}
    (done : dynDnsSave site caller db name subnames rows = .ok db') :
    Enforces site caller db db' (.dynDns name subnames rows) := by
  simp only [dynDnsSave, bind_eq_ok_iff] at done
  obtain ⟨rrsets, -, done⟩ := done
  obtain ⟨session, many, rfl⟩ := db_of_committed done
  obtain ⟨_, same, permitted, confined⟩ := spec_of_saveMany many
  obtain rfl := (Json.list.inj same).symm
  constructor
  · rintro d i ⟨rfl, row, member, names⟩
    exact Or.inr (permits_iff.mp (permitted _ (List.mem_map_of_mem member) i names))
  · intro d i differs
    obtain ⟨rfl, -, row, member, names⟩ := confined d i differs
    obtain ⟨given, inRows, rfl⟩ := List.mem_map.mp member
    exact Or.inl ⟨rfl, given, inRows, names⟩

private theorem confined_of_apiDo {name : Text} {last : Database}
    (applied : apiDo site.unicode site.settings site.orders db (.createDomain name) = some last) :
    Confined name (· = nsItem) db last := by
  obtain ⟨⟨_, signals⟩, adds, rfl⟩ := Option.map_eq_some_iff.mp applied
  refine confined_of_performAll (by rfl) (fun operation member => ?_) adds
  rcases List.mem_cons.mp member with rfl | member
  · exact .createRRset _
  · rw [List.mem_singleton.mp member]
    exact .bulkCreateRRs _

theorem enforced_createDomain {name : Text} {zonefile : Option Text}
    (done : createDomain site caller db name zonefile = .ok db') :
    Enforces site caller db db' (.createDomain name zonefile) := by
  unfold createDomain at done
  split at done
  · exact absurd done (by simp)
  · split at done
    · exact absurd done (by simp)
    · simp only [bind_eq_ok_iff] at done
      obtain ⟨rrsets, parsed, done⟩ := done
      split at done
      · exact absurd done (by simp)
      · split at done
        · exact absurd done (by simp)
        · next created sent performed =>
          simp only [bind_eq_ok_iff] at done
          obtain ⟨session, many, done⟩ := done
          split at done
          · exact absurd done (by simp)
          · next last applied =>
            split at done
            · obtain rfl := Except.ok.inj done
              obtain ⟨_, same, permitted, confined⟩ := spec_of_saveMany many
              obtain rfl := (Json.list.inj same).symm
              have default := confined_of_apiDo applied
              simp only [perform, Option.ite_none_right_eq_some, Option.some.injEq,
                Prod.mk.injEq] at performed
              obtain ⟨⟨absent, -⟩, rfl, -⟩ := performed
              constructor
              · rintro d i ⟨rfl, zone, parsed', rrset, member, names⟩
                obtain rfl := Except.ok.inj (parsed.symm.trans parsed')
                exact Or.inr (permits_iff.mp (permitted _ (List.mem_map_of_mem member) i names))
              · intro d i differs
                by_cases imported : value session.db d i = value (db.insert name ∅) d i
                · rw [value_insert_empty absent] at imported
                  obtain ⟨rfl, rfl⟩ := default d i (by rwa [imported])
                  exact Or.inr ⟨zonefile, rfl, rfl⟩
                · obtain ⟨rfl, -, row, member, names⟩ := confined d i imported
                  obtain ⟨given, inRRsets, rfl⟩ := List.mem_map.mp member
                  exact Or.inl ⟨rfl, rrsets, parsed, given, inRRsets, names⟩
            · exact absurd done (by simp)

theorem enforced_of_handle {request : WriteRequest}
    (done : handle site caller db request = .ok db') : Enforces site caller db db' request := by
  cases request with
  | post name data => exact enforced_post done
  | update isPartial name query data => exact enforced_update done
  | updateDetail isPartial name item data => exact enforced_updateDetail done
  | destroyDetail name item => exact enforced_destroyDetail done
  | dynDns name subnames rows => exact enforced_dynDns done
  | createDomain name zonefile => exact enforced_createDomain done

/-- What a request changes is named by it and may be written, or the default NS RRset. -/
theorem changed_of_after (site : Site) (caller : Caller) (db : Database) (request : WriteRequest)
    (d : Text) (i : Item) (differs : value (after site caller db request) d i ≠ value db d i) :
    (Names site request d i ∧ Permits caller.policies (d, i)) ∨
      ∃ zonefile, request = .createDomain d zonefile ∧ i = nsItem := by
  unfold after at differs
  split at differs
  · next db' done =>
    have enforces := enforced_of_handle done
    rcases enforces.changed d i differs with named | default
    · refine Or.inl ⟨named, ?_⟩
      rcases enforces.permitted d i named with rfl | permits
      · exact absurd rfl differs
      · exact permits
    · exact Or.inr default
  · exact absurd rfl differs

/-- Every RRset that a request changes may be written by its token, and a request about an RRset
that may not be written changes nothing at all. -/
theorem policies_enforced (site : Site) (caller : Caller) (db : Database)
    (request : WriteRequest) :
    (∀ d i, value (after site caller db request) d i ≠ value db d i →
      (Names site request d i ∧ Permits caller.policies (d, i)) ∨
        ∃ zonefile, request = .createDomain d zonefile ∧ i = nsItem) ∧
    ((∃ d i, Names site request d i ∧ ¬ Permits caller.policies (d, i)) →
      after site caller db request = db) := by
  refine ⟨changed_of_after site caller db request, ?_⟩
  rintro ⟨d, i, named, denied⟩
  unfold after
  split
  · next db' done =>
    exact ((enforced_of_handle done).permitted d i named).resolve_right denied
  · rfl

end Requests

end DesecStack.Views.Enforced
