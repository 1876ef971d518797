/- module: DesecStack/Records/BulkExact
   layer: main results
   digest: Bulk requests on RRsets are validated exactly where trimming changes no clash. -/

import DesecStack.Records.Accepted
import DesecStack.Records.Writes
import Mathlib.Data.List.Perm.Basic

set_option autoImplicit false
set_option relaxedAutoImplicit false

namespace DesecStack.Records.BulkExact

open Library.PyText
open Library.Surrogates
open Library.SetOrder (VisitOrder)
open Library.Runs (bind_eq_ok_iff)
open Changes.Models
open Fields
open Serializer (Attrs Context exclusionMessage nonFieldError)
open ListSerializer
open Save Rows Validated Writes Accepted

inductive Method where
  | post
  | patch
  | put
  deriving DecidableEq

/-- The serializer of a bulk request; only updates are given the RRsets that are selected. -/
def bulkRequest (method : Method) (ctx : Context) (selected : Finset Item) :
    ListSerializer.Request where
  ctx := { ctx with isPost := method = .post, subnameKwarg := none }
  isPartial := method = .patch
  queryset := if method = .post then ∅ else selected

/-- `create` or `update` of the list serializer. -/
def save (env : Env) (method : Method) (session : Session) (selected : Finset Item)
    (result : List Attrs) : Saved :=
  match method with
  | .post => listCreate env session result
  | .patch | .put => listUpdate env session selected result

/-- What is accepted has one item for each RRset, is saved without violating a constraint, in
any order of the loops over sets, and leaves the domain exclusive. -/
def Sound (env : Env) (method : Method) (ctx : Context) (selected : Finset Item)
    (session : Session) (rows : List Json) : Prop :=
  ∀ result, ListSerializer.toInternalValue (bulkRequest method ctx selected) (.list rows)
      = .ok result →
    (result.map keyOf).Nodup ∧ ∀ order : VisitOrder Item,
      ¬ Violation (save { env with items := order } method session selected result) ∧
      ∀ session', save { env with items := order } method session selected result
        = .ok session' → Exclusive (items env session')

/-- A valid row is rejected for exclusivity only if the whole list asks for a CNAME RRset and
another one at the subname of the row. (No row is, where the database does not answer.) -/
def Precise (method : Method) (ctx : Context) (selected : Finset Item) (rows : List Json) :
    Prop :=
  ∀ position data types, rows.findSome? queryError = none → RowAt rows position data →
    (∃ attrs, validateRow (bulkRequest method ctx selected) data = .ok attrs) →
    checkRow (indices ctx.rrsets rows) (collapsedIndices ctx.rrsets rows) position data
      = nonFieldError (exclusionMessage types) →
    Present Str.strip ctx.rrsets rows ((readKey Str.strip data).1, some (.text cname)) ∧
      ∃ type, type ≠ .text cname ∧
        Present Str.strip ctx.rrsets rows ((readKey Str.strip data).1, some type)

/-- The type and subname under which a row is stored. -/
def storedItem (data : Entries) : Item :=
  (((readKey Str.strip data).2.bind Str.toText).getD [],
    ((readKey Str.strip data).1.bind Str.toText).getD [])

/-- A row that asks for a new RRset. -/
def creates (request : ListSerializer.Request) (data : Entries) : Bool :=
  !isEmptyRow data && (knownInstance request (keyOfRow data)).isNone

/-- The orders in which a method may create new RRsets: that of the list, or any. -/
def CreationOrder (method : Method) (request : ListSerializer.Request) (rows : List Json)
    (l : List Entries) : Prop :=
  match method with
  | .post => l = (entries rows).filter (creates request)
  | .patch | .put => l.Perm ((entries rows).filter (creates request))

/-- The stored RRsets that no row empties. -/
def kept (rrsets : RRsets) (rows : List Json) : Finset Item :=
  rrsets.keys.filter fun item =>
    ∀ data ∈ entries rows, isEmptyRow data = true → storedItem data ≠ item

/-- Some row is stored where an RRset that is kept, or one created before it, is in its way. The
rows before it have records that are accepted. -/
def LateClash (env : Env) (method : Method) (request : ListSerializer.Request)
    (rows : List Json) : Prop :=
  ∃ before new after, CreationOrder method request rows (before ++ new :: after) ∧
    (∀ earlier ∈ before, Fits env (storedItem earlier) (validated request earlier)) ∧
    Blocks (kept request.ctx.rrsets rows ∪ (before.map storedItem).toFinset) (storedItem new)

/-- The check on raw keys finds nothing. -/
def RawlyFree (rrsets : RRsets) (rows : List Json) : Prop :=
  ∀ position data, RowAt rows position data → ¬ Duplicate id rows position data ∧
    (isEmptyRow data = false → ¬ Excluded id rrsets rows data)

/-- Trimming subnames and types makes no new clash. -/
def NoNewClash (env : Env) (method : Method) (request : ListSerializer.Request)
    (rows : List Json) : Prop :=
  Valid request rows → RawlyFree request.ctx.rrsets rows →
    (∀ position data, RowAt rows position data → ¬ Duplicate Str.strip rows position data) ∧
      ¬ LateClash env method request rows

/-- Trimming subnames and types resolves no clash. -/
def NoLostClash (request : ListSerializer.Request) (rows : List Json) : Prop :=
  ∀ position data, rows.findSome? queryError = none → RowAt rows position data →
    (∃ attrs, validateRow request data = .ok attrs) → isEmptyRow data = false →
    ¬ Duplicate id rows position data → ¬ Nameless rows data →
    Excluded id request.ctx.rrsets rows data → Excluded Str.strip request.ctx.rrsets rows data

/-- What the serializer and the models have in common. -/
structure Agrees (env : Env) (ctx : Context) (session : Session) : Prop where
  unicode : env.unicode = ctx.unicode
  stored : session.db.lookup env.name = some ctx.rrsets

section ValidRows

variable {request : ListSerializer.Request} {rows : List Json}
  (listView : request.ctx.subnameKwarg = none)
include listView

theorem validRow_of_mem (valid : Valid request rows) {data : Entries}
    (member : data ∈ entries rows) :
    ValidRow request data (storedItem data) (validated request data) := by
  obtain ⟨row, -, shaped, done⟩ := valid.of_mem member
  obtain ⟨item, row⟩ := validRow_of_validateRow listView shaped done
  have same : storedItem data = item := by simp [storedItem, row.trimmed]
  exact same ▸ row

theorem keyOf_validated (valid : Valid request rows) {data : Entries}
    (member : data ∈ entries rows) : keyOf (validated request data) = storedItem data := by
  have row := validRow_of_mem listView valid member
  simp [keyOf, row.subname, row.type]

private theorem readKey_strip (valid : Valid request rows) {data : Entries}
    (member : data ∈ entries rows) :
    readKey Str.strip data =
      (some (.text (storedItem data).2), some (.text (storedItem data).1)) :=
  (validRow_of_mem listView valid member).trimmed

theorem keys_eq (valid : Valid request rows) :
    ((entries rows).map (validated request)).map keyOf = (entries rows).map storedItem := by
  rw [List.map_map]
  exact List.map_congr_left fun data member => keyOf_validated listView valid member

private theorem nodup_keys_iff (valid : Valid request rows) :
    ((entries rows).map storedItem).Nodup ↔
      ∀ position data, RowAt rows position data → ¬ Duplicate Str.strip rows position data := by
  have same {a b : Entries} (ha : a ∈ entries rows) (hb : b ∈ entries rows) :
      readKey Str.strip a = readKey Str.strip b ↔ storedItem a = storedItem b := by
    rw [readKey_strip listView valid ha, readKey_strip listView valid hb]
    simp [Prod.ext_iff, and_comm]
  simp only [List.nodup_iff_getElem?_ne_getElem?, List.length_map, List.getElem?_map]
  constructor
  · intro differ position data here ⟨other, row, there, ne, agree⟩
    have one := valid.rowAt_iff.mp here
    have two := valid.rowAt_iff.mp there
    have clash := (same (List.mem_of_getElem? two) (List.mem_of_getElem? one)).mp agree
    rcases Nat.lt_or_gt_of_ne ne with lt | lt
    · exact differ other position lt (List.getElem?_eq_some_iff.mp one).1
        (by simp [one, two, clash])
    · exact differ position other lt (List.getElem?_eq_some_iff.mp two).1
        (by simp [one, two, clash])
  · intro free i j lt bound agree
    have one := List.getElem?_eq_getElem (lt.trans bound)
    have two := List.getElem?_eq_getElem bound
    simp only [one, two, Option.map_some, Option.some.injEq] at agree
    have rows := (same (List.getElem_mem _) (List.getElem_mem _)).mpr agree
    exact free j _ (valid.rowAt_iff.mpr two) ⟨i, _, valid.rowAt_iff.mpr one, lt.ne, rows⟩

omit listView in
private theorem storedItem_inj (nodup : ((entries rows).map storedItem).Nodup) {a b : Entries}
    (ha : a ∈ entries rows) (hb : b ∈ entries rows) (same : storedItem a = storedItem b) : a = b :=
  List.inj_on_of_nodup_map nodup ha hb same

theorem isEmpty_validated (valid : Valid request rows) {data : Entries}
    (member : data ∈ entries rows) : isEmpty (validated request data) = isEmptyRow data := by
  have row := validRow_of_mem listView valid member
  rw [Bool.eq_iff_iff, ← row.empty_iff]
  simp [isEmpty]

private theorem known_iff (selected : request.queryset ⊆ request.ctx.rrsets.keys)
    (valid : Valid request rows) {data : Entries} (member : data ∈ entries rows) :
    storedItem data ∈ request.queryset ↔ (knownInstance request (keyOfRow data)).isSome := by
  have row := validRow_of_mem listView valid member
  cases found : knownInstance request (keyOfRow data) with
  | none => simpa using fun inQuery => row.unknown found (selected inQuery)
  | some known =>
    obtain ⟨same, -⟩ := row.known known found
    simpa [← same] using (knownInstance_some found).2.1

theorem complete_of_creates {env : Env} (unicode : env.unicode = request.ctx.unicode)
    (valid : Valid request rows) {data : Entries}
    (member : data ∈ (entries rows).filter (creates request)) :
    Complete env (storedItem data) (validated request data) := by
  obtain ⟨here, asks⟩ := List.mem_filter.mp member
  simp only [creates, Bool.and_eq_true, Bool.not_eq_true', Option.isNone_iff_eq_none] at asks
  have row := validRow_of_mem listView valid here
  obtain ⟨records, ttl, given, -, isTtl, bound⟩ := row.complete asks.2 asks.1
  exact ⟨records, ttl, given, isTtl, unicode ▸ row.clean ttl bound⟩

private theorem dataFor_storedItem (nodup : ((entries rows).map storedItem).Nodup)
    (valid : Valid request rows) {data : Entries} (member : data ∈ entries rows) :
    dataFor ((entries rows).map (validated request)) (storedItem data)
      = some (validated request data) := by
  have last : ∀ l : List Entries, l ⊆ entries rows → data ∈ l → ∃ rest,
      (l.map (validated request)).filter (fun attrs => keyOf attrs = storedItem data)
        = rest ++ [validated request data] := by
    intro l
    induction l using List.reverseRecOn with
    | nil => simp
    | append_singleton before a ih =>
      intro sub there
      have here : a ∈ entries rows := sub (by simp)
      rw [List.map_append, List.filter_append]
      by_cases same : storedItem a = storedItem data
      · obtain rfl := storedItem_inj nodup here member same
        refine ⟨(before.map (validated request)).filter fun attrs => keyOf attrs = storedItem a, ?_⟩
        simp [keyOf_validated listView valid here]
      · have earlier : data ∈ before := by
          rcases List.mem_append.mp there with there | there
          · exact there
          · exact absurd (by rw [List.mem_singleton.mp there]) same
        obtain ⟨rest, found⟩ := ih (fun b hb => sub (List.mem_append_left _ hb)) earlier
        exact ⟨rest, by simp [found, keyOf_validated listView valid here, same]⟩
  obtain ⟨rest, found⟩ := last _ (List.Subset.refl _) member
  simp [dataFor, found]

end ValidRows

/-- The data of an RRset that a row creates. -/
def creation (request : ListSerializer.Request) (data : Entries) : Item × Attrs :=
  (storedItem data, validated request data)

private theorem split_map_iff {request : ListSerializer.Request} {l : List Entries}
    {P : List (Item × Attrs) → Item × Attrs → Prop} :
    (∃ before new after, l.map (creation request) = before ++ new :: after ∧ P before new) ↔
      ∃ before new after, l = before ++ new :: after ∧
        P (before.map (creation request)) (creation request new) := by
  constructor
  · rintro ⟨before, new, after, same, holds⟩
    obtain ⟨one, two, rfl, rfl, tail⟩ := List.map_eq_append_iff.mp same
    obtain ⟨first, rest, rfl, rfl, rfl⟩ := List.map_eq_cons_iff.mp tail
    exact ⟨one, first, rest, rfl, holds⟩
  · rintro ⟨before, new, after, rfl, holds⟩
    exact ⟨before.map (creation request), creation request new, after.map (creation request),
      by simp, holds⟩

private theorem items_of_agrees {env : Env} {ctx : Context} {session : Session}
    (agrees : Agrees env ctx session) : items env session = ctx.rrsets.keys := by
  simp [items, itemsOf, agrees.stored]

private theorem hasDomain_of_agrees {env : Env} {ctx : Context} {session : Session}
    (agrees : Agrees env ctx session) : HasDomain env session := by
  simp [HasDomain, agrees.stored]

/-- The outcome of a save is that of the creations in it, which start from the RRsets kept. -/
structure SavedBy (env : Env) (method : Method) (ctx : Context) (selected : Finset Item)
    (session : Session) (rows : List Json) (middle : Session) (l : List Entries) : Prop where
  present : HasDomain env middle
  items : items env middle = kept ctx.rrsets rows
  violation : Violation (save env method session selected
      ((entries rows).map (validated (bulkRequest method ctx selected)))) ↔
    Violation (createAll env middle (l.map (creation (bulkRequest method ctx selected))))
  done (session' : Session) (saved : save env method session selected
      ((entries rows).map (validated (bulkRequest method ctx selected))) = .ok session') :
    ∃ next, createAll env middle (l.map (creation (bulkRequest method ctx selected))) = .ok next ∧
      Writes.items env session' = Writes.items env next

section Save

variable {env : Env} {ctx : Context} {session : Session} {selected : Finset Item}
  {rows : List Json}

private theorem savedBy_post (agrees : Agrees env ctx session)
    (valid : Valid (bulkRequest .post ctx selected) rows) :
    SavedBy env .post ctx selected session rows session
      ((entries rows).filter (creates (bulkRequest .post ctx selected))) := by
  have nonempty (data : Entries) (member : data ∈ entries rows) : isEmptyRow data = false :=
    (validRow_of_mem rfl valid member).not_post rfl
  have all : (entries rows).filter (creates (bulkRequest .post ctx selected)) = entries rows := by
    rw [List.filter_eq_self]
    intro data member
    have unknown : knownInstance (bulkRequest .post ctx selected) (keyOfRow data) = none := by
      unfold knownInstance
      split <;> simp [bulkRequest]
    simp [creates, nonempty data member, unknown]
  have whole : save env .post session selected
      ((entries rows).map (validated (bulkRequest .post ctx selected)))
      = createAll env session
          ((entries rows).map (creation (bulkRequest .post ctx selected))) := by
    have pairs : (entries rows).map (creation (bulkRequest .post ctx selected))
        = ((entries rows).map (validated (bulkRequest .post ctx selected))).map
            fun attrs => (keyOf attrs, attrs) := by
      rw [List.map_map]
      refine List.map_congr_left fun data member => ?_
      simp [creation, keyOf_validated rfl valid member]
    simp only [pairs, save, listCreate, createAll, List.foldlM_map]
  rw [all]
  refine ⟨hasDomain_of_agrees agrees, ?_, by rw [whole], fun session' saved => ?_⟩
  · rw [items_of_agrees agrees, kept, Finset.filter_true_of_mem]
    intro item _ data member empty
    exact absurd empty (by simp [nonempty data member])
  · exact ⟨session', whole ▸ saved, rfl⟩

section Sets

variable {request : ListSerializer.Request} (listView : request.ctx.subnameKwarg = none)
  (valid : Valid request rows)
include listView valid

private theorem mem_keys_iff (item : Item) :
    item ∈ keys ((entries rows).map (validated request)) ↔
      ∃ data ∈ entries rows, storedItem data = item := by
  rw [keys, keys_eq listView valid]
  simp

private theorem mem_emptied_iff (item : Item) :
    item ∈ emptied ((entries rows).map (validated request)) ↔
      ∃ data ∈ entries rows, isEmptyRow data = true ∧ storedItem data = item := by
  simp only [emptied, List.mem_toFinset, List.mem_map, List.mem_filter]
  constructor
  · rintro ⟨_, ⟨⟨data, member, rfl⟩, empty⟩, rfl⟩
    exact ⟨data, member, isEmpty_validated listView valid member ▸ empty,
      (keyOf_validated listView valid member).symm⟩
  · rintro ⟨data, member, empty, rfl⟩
    exact ⟨_, ⟨⟨data, member, rfl⟩, (isEmpty_validated listView valid member).trans empty⟩,
      keyOf_validated listView valid member⟩

end Sets

private theorem known_selected {method : Method} (update : method ≠ .post)
    (selectable : selected ⊆ ctx.rrsets.keys)
    (valid : Valid (bulkRequest method ctx selected) rows) {data : Entries}
    (member : data ∈ entries rows) : storedItem data ∈ selected ↔
      (knownInstance (bulkRequest method ctx selected) (keyOfRow data)).isSome := by
  have isQuery : (bulkRequest method ctx selected).queryset = selected := by
    simp [bulkRequest, update]
  have stored : (bulkRequest method ctx selected).queryset ⊆ ctx.rrsets.keys := by
    rw [isQuery]
    exact selectable
  rw [← known_iff rfl stored valid member, isQuery]

private theorem mem_created_iff {method : Method} (update : method ≠ .post)
    (selectable : selected ⊆ ctx.rrsets.keys)
    (valid : Valid (bulkRequest method ctx selected) rows)
    (nodup : ((entries rows).map storedItem).Nodup) (item : Item) :
    item ∈ ((entries rows).filter (creates (bulkRequest method ctx selected))).map storedItem ↔
      item ∈ created selected
        ((entries rows).map (validated (bulkRequest method ctx selected))) := by
  have known {data : Entries} (member : data ∈ entries rows) :=
    known_selected update selectable valid member
  simp only [created, Finset.mem_inter, Finset.mem_sdiff, mem_keys_iff rfl valid,
    mem_emptied_iff rfl valid, List.mem_map, List.mem_filter, creates, Bool.and_eq_true,
    Bool.not_eq_true', Option.isNone_iff_eq_none, ← Option.not_isSome_iff_eq_none]
  constructor
  · rintro ⟨data, ⟨member, nonempty, unknown⟩, rfl⟩
    refine ⟨⟨⟨data, member, rfl⟩, fun ⟨inQuery, _⟩ => ?_⟩, ⟨data, member, rfl⟩, ?_⟩
    · exact unknown ((known member).mp inQuery)
    · rintro ⟨other, there, empty, same⟩
      rw [storedItem_inj nodup there member same, nonempty] at empty
      exact absurd empty (by simp)
  · rintro ⟨⟨⟨data, member, rfl⟩, unknown⟩, -, nonempty⟩
    refine ⟨data, ⟨member, ?_, fun found => ?_⟩, rfl⟩
    · by_contra empty
      exact nonempty ⟨data, member, by simpa using empty, rfl⟩
    · exact unknown ⟨(known member).mpr found, data, member, rfl⟩

private theorem mem_deleted_iff {method : Method} (update : method ≠ .post)
    (selectable : selected ⊆ ctx.rrsets.keys)
    (valid : Valid (bulkRequest method ctx selected) rows)
    {item : Item} (stored : item ∈ ctx.rrsets.keys) :
    item ∈ deleted selected ((entries rows).map (validated (bulkRequest method ctx selected))) ↔
      ∃ data ∈ entries rows, isEmptyRow data = true ∧ storedItem data = item := by
  simp only [deleted, Finset.mem_inter, mem_keys_iff rfl valid, mem_emptied_iff rfl valid]
  constructor
  · rintro ⟨-, emptied⟩
    exact emptied
  · rintro ⟨data, member, empty, rfl⟩
    refine ⟨⟨?_, data, member, rfl⟩, data, member, empty, rfl⟩
    apply (known_selected update selectable valid member).mpr
    by_contra unknown
    have row := validRow_of_mem rfl valid member
    exact row.unknown (Option.not_isSome_iff_eq_none.mp unknown) stored

private theorem savedBy_update {method : Method} (update : method ≠ .post)
    (agrees : Agrees env ctx session) (selectable : selected ⊆ ctx.rrsets.keys)
    (valid : Valid (bulkRequest method ctx selected) rows)
    (nodup : ((entries rows).map storedItem).Nodup) {l : List Entries} (sub : l ⊆ entries rows)
    (visited : env.items.visit (created selected
        ((entries rows).map (validated (bulkRequest method ctx selected)))) = l.map storedItem) :
    ∃ middle, SavedBy env method ctx selected session rows middle l := by
  obtain ⟨middle, present, left, violation, done⟩ := listUpdate_spec selected
    ((entries rows).map (validated (bulkRequest method ctx selected)))
    (hasDomain_of_agrees agrees) (items_of_agrees agrees ▸ selectable)
  have isUpdate : save env method session selected
      ((entries rows).map (validated (bulkRequest method ctx selected)))
      = listUpdate env session selected
          ((entries rows).map (validated (bulkRequest method ctx selected))) := by
    cases method with
    | post => exact absurd rfl update
    | patch => rfl
    | put => rfl
  have creations : (l.map storedItem).map (fun item => (item, dataOf
      ((entries rows).map (validated (bulkRequest method ctx selected))) item))
      = l.map (creation (bulkRequest method ctx selected)) := by
    rw [List.map_map]
    refine List.map_congr_left fun data member => ?_
    simp [creation, dataOf, dataFor_storedItem rfl nodup valid (sub member)]
  rw [visited, creations] at violation done
  refine ⟨middle, present, ?_, by rw [isUpdate, violation], fun session' saved => ?_⟩
  · rw [left, items_of_agrees agrees, kept]
    ext item
    simp only [Finset.mem_sdiff, Finset.mem_filter]
    refine and_congr_right fun stored => ?_
    rw [mem_deleted_iff update selectable valid stored]
    simp
  · exact done session' (isUpdate ▸ saved)

private theorem violation_iff_of_savedBy {method : Method} {middle : Session} {l : List Entries}
    (agrees : Agrees env ctx session) (valid : Valid (bulkRequest method ctx selected) rows)
    (ordered : l ⊆ (entries rows).filter (creates (bulkRequest method ctx selected)))
    (saved : SavedBy env method ctx selected session rows middle l) :
    Violation (save env method session selected
        ((entries rows).map (validated (bulkRequest method ctx selected)))) ↔
      ∃ before new after, l = before ++ new :: after ∧
        (∀ earlier ∈ before, Fits env (storedItem earlier)
          (validated (bulkRequest method ctx selected) earlier)) ∧
        Blocks (kept ctx.rrsets rows ∪ (before.map storedItem).toFinset) (storedItem new) := by
  have complete : ∀ new ∈ l.map (creation (bulkRequest method ctx selected)),
      Complete env new.1 new.2 := by
    intro new member
    obtain ⟨data, there, rfl⟩ := List.mem_map.mp member
    exact complete_of_creates rfl agrees.unicode valid (ordered there)
  rw [saved.violation, violation_createAll_iff saved.present complete,
    split_map_iff (P := fun before new => (∀ earlier ∈ before, Fits env earlier.1 earlier.2) ∧
      Blocks (Writes.items env middle ∪ (before.map Prod.fst).toFinset) new.1), saved.items]
  simp [creation, Function.comp_def]

private theorem exclusive_of_savedBy {method : Method} {middle session' : Session}
    {l : List Entries}
    (agrees : Agrees env ctx session) (exclusive : Exclusive ctx.rrsets.keys)
    (valid : Valid (bulkRequest method ctx selected) rows)
    (ordered : l ⊆ (entries rows).filter (creates (bulkRequest method ctx selected)))
    (saved : SavedBy env method ctx selected session rows middle l)
    (done : save env method session selected
        ((entries rows).map (validated (bulkRequest method ctx selected))) = .ok session') :
    Exclusive (items env session') := by
  obtain ⟨next, created, same⟩ := saved.done session' done
  rw [same]
  refine exclusive_of_createAll saved.present ?_ ?_ created
  · intro new member
    obtain ⟨data, there, rfl⟩ := List.mem_map.mp member
    exact complete_of_creates rfl agrees.unicode valid (ordered there)
  · rw [saved.items]
    exact exclusive_subset exclusive (Finset.filter_subset _ _)

private theorem exists_savedBy {method : Method} (agrees : Agrees env ctx session)
    (selectable : selected ⊆ ctx.rrsets.keys)
    (valid : Valid (bulkRequest method ctx selected) rows)
    (nodup : ((entries rows).map storedItem).Nodup) (order : VisitOrder Item) :
    ∃ middle l, CreationOrder method (bulkRequest method ctx selected) rows l ∧
      SavedBy { env with items := order } method ctx selected session rows middle l := by
  have agrees' : Agrees { env with items := order } ctx session := ⟨agrees.unicode, agrees.stored⟩
  have update (isUpdate : method ≠ .post) : ∃ middle l,
      l.Perm ((entries rows).filter (creates (bulkRequest method ctx selected))) ∧
        SavedBy { env with items := order } method ctx selected session rows middle l := by
    obtain ⟨l, perm, visited⟩ := Library.SetOrder.exists_perm_visit order
      (nodup.sublist (List.filter_sublist.map storedItem))
      (mem_created_iff isUpdate selectable valid nodup)
    have sub : l ⊆ entries rows := fun data member => List.mem_of_mem_filter (perm.subset member)
    obtain ⟨middle, saved⟩ := savedBy_update isUpdate agrees' selectable valid nodup sub
      visited.symm
    exact ⟨middle, l, perm, saved⟩
  cases method with
  | post => exact ⟨session, _, rfl, savedBy_post agrees' valid⟩
  | patch => exact update (by simp)
  | put => exact update (by simp)

private theorem exists_order {method : Method} (agrees : Agrees env ctx session)
    (selectable : selected ⊆ ctx.rrsets.keys)
    (valid : Valid (bulkRequest method ctx selected) rows)
    (nodup : ((entries rows).map storedItem).Nodup) {l : List Entries}
    (ordered : CreationOrder method (bulkRequest method ctx selected) rows l) :
    ∃ (order : VisitOrder Item) (middle : Session),
      SavedBy { env with items := order } method ctx selected session rows middle l := by
  have update (isUpdate : method ≠ .post)
      (perm : l.Perm ((entries rows).filter (creates (bulkRequest method ctx selected)))) :
      ∃ (order : VisitOrder Item) (middle : Session),
        SavedBy { env with items := order } method ctx selected session rows middle l := by
    have fewer := nodup.sublist (List.filter_sublist
      (p := creates (bulkRequest method ctx selected)).map storedItem)
    obtain ⟨order, visited⟩ := Library.SetOrder.exists_visit_eq
      ((perm.map storedItem).nodup_iff.mpr fewer) fun item =>
        ((perm.map storedItem).mem_iff).trans
          (mem_created_iff isUpdate selectable valid nodup item)
    have sub : l ⊆ entries rows := fun data member => List.mem_of_mem_filter (perm.subset member)
    have agrees' : Agrees { env with items := order } ctx session :=
      ⟨agrees.unicode, agrees.stored⟩
    exact ⟨order, savedBy_update isUpdate agrees' selectable valid nodup sub visited⟩
  cases method with
  | post =>
    obtain rfl := ordered
    exact ⟨env.items, session, savedBy_post ⟨agrees.unicode, agrees.stored⟩ valid⟩
  | patch => exact update (by simp) ordered
  | put => exact update (by simp) ordered

private theorem subset_of_creationOrder {method : Method} {request : ListSerializer.Request}
    {l : List Entries} (ordered : CreationOrder method request rows l) :
    l ⊆ (entries rows).filter (creates request) := by
  cases method with
  | post =>
    obtain rfl := ordered
    exact List.Subset.refl _
  | patch => exact List.Perm.subset ordered
  | put => exact List.Perm.subset ordered

end Save

section Exact

variable {env : Env} {method : Method} {ctx : Context} {session : Session}
  {selected : Finset Item} {rows : List Json}

private theorem not_nameless_of_valid (valid : Valid (bulkRequest method ctx selected) rows)
    (data : Entries) : ¬ Nameless rows data := by
  rintro ⟨-, position, row, here, -, untyped⟩
  have member := List.mem_of_getElem? (valid.rowAt_iff.mp here)
  have typed := congrArg Prod.snd (readKey_strip rfl valid member)
  have absent : strOf row Serializer.typeKey = none := congrArg Prod.snd untyped
  simp [readKey, absent] at typed

theorem checked_iff_of_valid (valid : Valid (bulkRequest method ctx selected) rows) :
    Checked (bulkRequest method ctx selected) rows ↔ RawlyFree ctx.rrsets rows := by
  have each (position : Nat) (data : Entries) (here : RowAt rows position data) :
      checkRow (indices ctx.rrsets rows) (collapsedIndices ctx.rrsets rows) position data = .ok () ↔
        ¬ Duplicate id rows position data ∧
          (isEmptyRow data = false → ¬ Excluded id ctx.rrsets rows data) := by
    rw [checkRow_ok_iff ctx.rrsets here]
    refine and_congr_right fun _ => ?_
    cases isEmptyRow data <;> simp [not_nameless_of_valid valid data]
  constructor
  · intro checked position data here
    exact (each position data here).mp (checked position data here)
  · intro free position data here
    exact (each position data here).mpr (free position data here)

/-- Accepted lists are saved as they should be exactly when trimming makes no new clash. -/
theorem sound_iff (agrees : Agrees env ctx session) (selectable : selected ⊆ ctx.rrsets.keys)
    (exclusive : Exclusive ctx.rrsets.keys) :
    Sound env method ctx selected session rows ↔
      NoNewClash env method (bulkRequest method ctx selected) rows := by
  constructor
  · intro sound valid free
    obtain ⟨distinct, saves⟩ := sound _ (toInternalValue_ok_iff.mpr
      ⟨valid, (checked_iff_of_valid valid).mpr free, rfl⟩)
    rw [keys_eq rfl valid] at distinct
    refine ⟨(nodup_keys_iff rfl valid).mp distinct, ?_⟩
    rintro ⟨before, new, after, ordered, fits, blocked⟩
    obtain ⟨order, middle, saved⟩ := exists_order agrees selectable valid distinct ordered
    have agrees' : Agrees { env with items := order } ctx session := ⟨agrees.unicode, agrees.stored⟩
    apply (saves order).1
    rw [violation_iff_of_savedBy agrees' valid
      (subset_of_creationOrder ordered) saved]
    exact ⟨before, new, after, rfl, fits, blocked⟩
  · intro exact result accepted
    obtain ⟨valid, checked, rfl⟩ := toInternalValue_ok_iff.mp accepted
    obtain ⟨distinct, free⟩ := exact valid ((checked_iff_of_valid valid).mp checked)
    rw [← nodup_keys_iff rfl valid] at distinct
    rw [keys_eq rfl valid]
    refine ⟨distinct, fun order => ?_⟩
    obtain ⟨middle, l, ordered, saved⟩ := exists_savedBy agrees selectable valid distinct order
    have agrees' : Agrees { env with items := order } ctx session := ⟨agrees.unicode, agrees.stored⟩
    constructor
    · rw [violation_iff_of_savedBy agrees' valid (subset_of_creationOrder ordered) saved]
      rintro ⟨before, new, after, rfl, fits, blocked⟩
      exact free ⟨before, new, after, ordered, fits, blocked⟩
    · intro session' done
      have after := exclusive_of_savedBy agrees' exclusive valid (subset_of_creationOrder ordered)
        saved done
      exact after

private theorem excluded_strip_iff {position : Nat} {data : Entries}
    (here : RowAt rows position data)
    (valid : ∃ attrs, validateRow (bulkRequest method ctx selected) data = .ok attrs)
    (nonempty : isEmptyRow data = false) :
    Excluded Str.strip ctx.rrsets rows data ↔
      Present Str.strip ctx.rrsets rows ((readKey Str.strip data).1, some (.text cname)) ∧
        ∃ type, type ≠ .text cname ∧
          Present Str.strip ctx.rrsets rows ((readKey Str.strip data).1, some type) := by
  obtain ⟨row, found, shaped⟩ := here
  obtain ⟨attrs, done⟩ := valid
  obtain ⟨item, validRow⟩ := validRow_of_validateRow rfl shaped done
  have own : Present Str.strip ctx.rrsets rows (some (.text item.2), some (.text item.1)) :=
    Or.inl ⟨position, data, ⟨row, found, shaped⟩, nonempty, validRow.trimmed⟩
  simp only [Excluded, validRow.trimmed, Option.some.injEq, Str.text.injEq]
  constructor
  · rintro ⟨type, differ, present⟩
    by_cases isCname : item.1 = cname
    · exact ⟨isCname ▸ own, type, by simpa [isCname] using differ, present⟩
    · have other : type = .text cname := by simpa [isCname] using differ
      exact ⟨other ▸ present, .text item.1, by simpa using isCname, own⟩
  · rintro ⟨presentCname, type, ne, present⟩
    by_cases isCname : item.1 = cname
    · exact ⟨type, by simp [isCname, ne], present⟩
    · exact ⟨.text cname, by simp [isCname], presentCname⟩

/-- Rows are rejected for exclusivity rightly exactly when trimming resolves no clash. -/
theorem precise_iff : Precise method ctx selected rows ↔
    NoLostClash (bulkRequest method ctx selected) rows := by
  constructor
  · intro precise position data answered here valid nonempty single named excluded
    obtain ⟨types, rejected⟩ := (checkRow_exclusion_iff ctx.rrsets here).mpr
      ⟨single, nonempty, excluded, named⟩
    exact (excluded_strip_iff here valid nonempty).mpr
      (precise position data types answered here valid rejected)
  · intro lossless position data types answered here valid rejected
    obtain ⟨single, nonempty, excluded, named⟩ :=
      (checkRow_exclusion_iff ctx.rrsets here).mp ⟨types, rejected⟩
    exact (excluded_strip_iff here valid nonempty).mp
      (lossless position data answered here valid nonempty single named excluded)

/-- Bulk validation is exact when, and only when, trimming changes no clash. -/
theorem bulk_exact_iff (env : Env) (method : Method) (ctx : Context) (selected : Finset Item)
    (session : Session) (rows : List Json) (agrees : Agrees env ctx session)
    (selectable : selected ⊆ ctx.rrsets.keys) (exclusive : Exclusive ctx.rrsets.keys) :
    Sound env method ctx selected session rows ∧ Precise method ctx selected rows ↔
      NoNewClash env method (bulkRequest method ctx selected) rows ∧
        NoLostClash (bulkRequest method ctx selected) rows :=
  and_congr (sound_iff agrees selectable exclusive) precise_iff

private theorem nodup_of_creationOrder {request : ListSerializer.Request} {l : List Entries}
    (nodup : ((entries rows).map storedItem).Nodup)
    (ordered : CreationOrder method request rows l) : (l.map storedItem).Nodup := by
  have fewer : (((entries rows).filter (creates request)).map storedItem).Nodup :=
    nodup.sublist (List.filter_sublist.map storedItem)
  cases method with
  | post =>
    obtain rfl := ordered
    exact fewer
  | patch => exact (List.Perm.map storedItem ordered).nodup_iff.mpr fewer
  | put => exact (List.Perm.map storedItem ordered).nodup_iff.mpr fewer

private theorem excluded_of_lateClash (valid : Valid (bulkRequest method ctx selected) rows)
    (nodup : ((entries rows).map storedItem).Nodup)
    (late : LateClash env method (bulkRequest method ctx selected) rows) :
    ∃ position data, RowAt rows position data ∧ isEmptyRow data = false ∧
      Excluded Str.strip ctx.rrsets rows data := by
  obtain ⟨before, new, after, ordered, -, blocked⟩ := late
  have inRows {data : Entries} (member : data ∈ before ++ new :: after) :
      data ∈ entries rows ∧ isEmptyRow data = false ∧
        knownInstance (bulkRequest method ctx selected) (keyOfRow data) = none := by
    obtain ⟨there, asks⟩ := List.mem_filter.mp (subset_of_creationOrder ordered member)
    simp only [creates, Bool.and_eq_true, Bool.not_eq_true', Option.isNone_iff_eq_none] at asks
    exact ⟨there, asks⟩
  have own : new ∈ before ++ new :: after := by simp
  obtain ⟨member, nonempty, unknown⟩ := inRows own
  have row := validRow_of_mem rfl valid member
  obtain ⟨position, bound, found⟩ := List.getElem_of_mem member
  have here : RowAt rows position new :=
    valid.rowAt_iff.mpr (List.getElem?_eq_some_iff.mpr ⟨bound, found⟩)
  refine ⟨position, new, here, nonempty, ?_⟩
  rcases blocked with clash | ⟨other, there, subname, differ⟩
  · exfalso
    rcases Finset.mem_union.mp clash with stored | created
    · exact row.unknown unknown (Finset.filter_subset _ _ stored)
    · have apart := nodup_of_creationOrder nodup ordered
      rw [List.map_append, List.map_cons, List.nodup_append] at apart
      exact apart.2.2 _ (List.mem_toFinset.mp created) _ (List.mem_cons_self ..) rfl
  · refine ⟨.text other.1, by simpa [row.trimmed] using differ, ?_⟩
    rw [row.trimmed, ← subname]
    rcases Finset.mem_union.mp there with stored | created
    · obtain ⟨inStore, left⟩ := Finset.mem_filter.mp stored
      refine Or.inr ⟨⟨other, inStore, rfl⟩, fun i data at_i empty agree => ?_⟩
      have inList := List.mem_of_getElem? (valid.rowAt_iff.mp at_i)
      rw [readKey_strip rfl valid inList] at agree
      exact left data inList empty (by simp_all [Prod.ext_iff])
    · obtain ⟨data, earlier, rfl⟩ := List.mem_map.mp (List.mem_toFinset.mp created)
      obtain ⟨inList, isNonempty, -⟩ := inRows (List.mem_append_left _ earlier)
      obtain ⟨i, iBound, iFound⟩ := List.getElem_of_mem inList
      refine Or.inl ⟨i, data, ?_, isNonempty, readKey_strip rfl valid inList⟩
      exact valid.rowAt_iff.mpr (List.getElem?_eq_some_iff.mpr ⟨iBound, iFound⟩)

/-- No subname and no type in a list has whitespace around it. -/
def Unpadded (rows : List Json) : Prop :=
  ∀ position data, RowAt rows position data → readKey Str.strip data = keyOfRow data

private theorem present_of_unpadded (unpadded : Unpadded rows) (key : Key) :
    Present Str.strip ctx.rrsets rows key ↔ Present id ctx.rrsets rows key := by
  unfold Present
  refine or_congr ?_ (and_congr_right fun _ => ?_)
  · refine exists_congr fun position => exists_congr fun row => and_congr_right fun here => ?_
    rw [unpadded position row here, readKey_id]
  · refine forall_congr' fun position => forall_congr' fun row => forall_congr' fun here => ?_
    rw [unpadded position row here, readKey_id]

private theorem excluded_of_unpadded (unpadded : Unpadded rows) {position : Nat} {data : Entries}
    (here : RowAt rows position data) :
    Excluded Str.strip ctx.rrsets rows data ↔ Excluded id ctx.rrsets rows data := by
  simp only [Excluded, unpadded position data here, readKey_id, present_of_unpadded unpadded]

private theorem noClash_of_unpadded (env : Env) (unpadded : Unpadded rows) :
    NoNewClash env method (bulkRequest method ctx selected) rows ∧
      NoLostClash (bulkRequest method ctx selected) rows := by
  refine ⟨fun valid free => ?_, fun position data _ here _ _ _ _ => ?_⟩
  · have distinct : ∀ position data, RowAt rows position data →
        ¬ Duplicate Str.strip rows position data := by
      rintro position data here ⟨other, row, there, ne, agree⟩
      refine (free position data here).1 ⟨other, row, there, ne, ?_⟩
      rwa [unpadded other row there, unpadded position data here, ← readKey_id,
        ← readKey_id] at agree
    have nodup := (nodup_keys_iff rfl valid).mpr distinct
    refine ⟨distinct, ?_⟩
    intro late
    obtain ⟨position, data, here, nonempty, excluded⟩ := excluded_of_lateClash valid nodup late
    exact (free position data here).2 nonempty ((excluded_of_unpadded unpadded here).mp excluded)
  · exact (excluded_of_unpadded unpadded here).mpr

end Exact

section Padded

/-- A domain with an `A` RRset at `www`. -/
private def rrsets₀ : RRsets :=
  Finmap.insert ("A".toList, "www".toList) ⟨300, {"192.0.2.1".toList}⟩ ∅

private def dns₀ : Serializer.Dns where
  validationTypes := {"A".toList, "CNAME".toList}
  canonical content _ := .ok content
  wire _ content := content
  nameTooLong _ _ := false

private def ctx₀ : Context where
  unicode := .plain
  dns := dns₀
  domainName := "a.example".toList
  rrsets := rrsets₀
  minimumTtl := 60
  isLocallyRegistrable := false
  blockedSubnet _ := false
  hasObjectPermission _ := true
  isPost := true
  subnameKwarg := none

private noncomputable def env₀ : Env where
  unicode := .plain
  dns := dns₀
  cascade := ⟨default, default⟩
  contents := default
  items := default
  name := "a.example".toList

private def session₀ : Session := ⟨Finmap.insert "a.example".toList rrsets₀ ∅, []⟩

private def cnameRow (subname : String) : Json :=
  .dict [("subname".toList, .str subname.toList), ("type".toList, .str "CNAME".toList),
    ("ttl".toList, .int 3600), ("records".toList, .list [.str "b.example.".toList])]

private def emptiedRow : Json :=
  .dict [("subname".toList, .str "www".toList), ("type".toList, .str "A".toList),
    ("records".toList, .list [])]

private theorem agrees₀ : Agrees env₀ ctx₀ session₀ := ⟨rfl, Finmap.lookup_insert _⟩

private theorem exclusive₀ : Exclusive ctx₀.rrsets.keys := by
  unfold Exclusive
  decide

private theorem unpadded_swap : Unpadded [cnameRow "www", emptiedRow] := by
  rintro position data ⟨row, found, shaped⟩
  match position with
  | 0 =>
    obtain rfl := Option.some.inj found
    obtain rfl := Except.ok.inj shaped
    rfl
  | 1 =>
    obtain rfl := Option.some.inj found
    obtain rfl := Except.ok.inj shaped
    rfl
  | n + 2 => simp at found

/-- An update that puts a CNAME RRset in the place of another one is treated exactly. -/
theorem bulk_exact_iff_swap :
    Sound env₀ .patch ctx₀ rrsets₀.keys session₀ [cnameRow "www", emptiedRow] ∧
      Precise .patch ctx₀ rrsets₀.keys [cnameRow "www", emptiedRow] :=
  (bulk_exact_iff env₀ .patch ctx₀ rrsets₀.keys session₀ [cnameRow "www", emptiedRow] agrees₀
    (Finset.Subset.refl _) exclusive₀).mpr (noClash_of_unpadded env₀ unpadded_swap)

private theorem accepted_padded : ListSerializer.toInternalValue (bulkRequest .post ctx₀ ∅)
    (.list [cnameRow " www"])
      = .ok [⟨some "www".toList, some ["b.example.".toList], some 3600, some "CNAME".toList⟩] :=
  rfl

/-- A blank before a subname hides it from the checks, but not from the constraints. -/
theorem padded_subname_clashes : Agrees env₀ ctx₀ session₀ ∧ Exclusive ctx₀.rrsets.keys ∧
    ¬ Sound env₀ .post ctx₀ ∅ session₀ [cnameRow " www"] := by
  refine ⟨agrees₀, exclusive₀, fun sound => ?_⟩
  obtain ⟨-, saves⟩ := sound _ accepted_padded
  exact (saves default).1 (Or.inr rfl)

end Padded

end DesecStack.Records.BulkExact
