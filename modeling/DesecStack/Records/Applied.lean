/- module: DesecStack/Records/Applied
   layer: lemmas
   digest: When a list that is saved leaves what each of its rows asks for. -/

import DesecStack.Records.BulkExact
import DesecStack.Records.Values

set_option autoImplicit false
set_option relaxedAutoImplicit false

namespace DesecStack.Records.Applied

open Library.PyText
open Changes.Models
open Fields (Json)
open Serializer (Attrs Context maximumTtl)
open ListSerializer
open Save
open Rows Validated Accepted
open Values
open Writes (keys emptied dataOf)
open BulkExact

/-- What data for an RRset asks for: that there is none, or the records and the TTL that are
given, with those before where they are not. -/
def Asks (env : Env) (item : Item) (attrs : Attrs) (before after : Option RRset) : Prop :=
  if isEmpty attrs then after = none
  else ∃ rrset, after = some rrset ∧
    (∀ records, attrs.records = some records → cleanRecords env item records = .ok rrset.records) ∧
    (attrs.records = none → before.map RRset.records = some rrset.records) ∧
    (∀ ttl, attrs.ttl = some ttl → (rrset.ttl : Int) = ttl) ∧
    (attrs.ttl = none → before.map RRset.ttl = some rrset.ttl)

/-- Data with the same records, in their clean form, and the same TTL. -/
def Same (env : Env) (item : Item) (a b : Attrs) : Prop :=
  isEmpty a = isEmpty b ∧ (isEmpty a = false →
    a.records.map (cleanRecords env item) = b.records.map (cleanRecords env item) ∧ a.ttl = b.ttl)

/-- Rows that are stored as the same new RRset ask for the same, and no TTL of zero is given for
a stored RRset that has another one. -/
structure Consistent (env : Env) (request : ListSerializer.Request) (db : Database)
    (rows : List Json) : Prop where
  agree (a b : Entries) (first : a ∈ entries rows) (second : b ∈ entries rows)
    (same : storedItem a = storedItem b) (new : value db env.name (storedItem a) = none) :
    Same env (storedItem a) (validated request a) (validated request b)
  zero (data : Entries) (member : data ∈ entries rows) (old : RRset)
    (found : value db env.name (storedItem data) = some old) (nonempty : isEmptyRow data = false)
    (given : (validated request data).ttl = some 0) : old.ttl = 0

section Own

variable {env : Env} {item : Item} {attrs : Attrs} {before after : Option RRset}

theorem asks_of_created {other : Attrs} (created : Created env item other after)
    (nonempty : isEmpty attrs = false) (same : Same env item attrs other) :
    Asks env item attrs before after := by
  obtain ⟨records, ttl, new, isRecords, isTtl, nonnegative, clean, rfl⟩ := created
  obtain ⟨sameRecords, sameTtl⟩ := same.2 nonempty
  rw [isRecords, Option.map_some] at sameRecords
  rw [isTtl] at sameTtl
  obtain ⟨own, isOwn, cleanOwn⟩ := Option.map_eq_some_iff.mp sameRecords
  rw [clean] at cleanOwn
  rw [Asks, nonempty, if_neg (by simp)]
  refine ⟨_, rfl, fun given isGiven => ?_, by simp [isOwn], fun n isN => ?_, by simp [sameTtl]⟩
  · obtain rfl := Option.some.inj (isOwn.symm.trans isGiven)
    exact cleanOwn
  · obtain rfl := Option.some.inj (sameTtl.symm.trans isN)
    exact Int.toNat_of_nonneg nonnegative

/-- An update gives data what they ask for, unless they ask for a TTL of zero. -/
theorem asks_of_updated_iff {old : RRset} (updated : Updated env item attrs old after)
    (nonempty : isEmpty attrs = false) (bound : ∀ ttl, attrs.ttl = some ttl → 0 ≤ ttl) :
    Asks env item attrs (some old) after ↔ (attrs.ttl = some 0 → old.ttl = 0) := by
  obtain ⟨new, clean, kept, rfl⟩ := updated
  rw [Asks, nonempty, if_neg (by simp)]
  constructor
  · rintro ⟨rrset, isAfter, -, -, same, -⟩ isZero
    have own := same 0 isZero
    rw [← Option.some.inj isAfter] at own
    simpa [isZero, ttlAfter] using own
  · intro zero
    refine ⟨_, rfl, clean, fun absent => by simp [kept absent], fun ttl given => ?_,
      fun absent => ?_⟩
    · have nonnegative := bound ttl given
      by_cases isZero : ttl = 0
      · subst isZero
        simpa [given, ttlAfter] using zero given
      · simp only [given, ttlAfter, isZero, if_false]
        omega
    · simp [absent, ttlAfter]

private theorem full_of_asks {rrset : RRset} (asks : Asks env item attrs none (some rrset)) :
    isEmpty attrs = false ∧
      attrs.records.map (cleanRecords env item) = some (.ok rrset.records) ∧
      attrs.ttl = some (rrset.ttl : Int) := by
  unfold Asks at asks
  split at asks
  · exact absurd asks (by simp)
  · next nonempty =>
    obtain ⟨there, isAfter, records, noRecords, ttl, noTtl⟩ := asks
    obtain rfl := Option.some.inj isAfter
    refine ⟨by simpa using nonempty, ?_, ?_⟩
    · cases given : attrs.records with
      | none => exact absurd (noRecords given) (by simp)
      | some list => rw [Option.map_some, records list given]
    · cases given : attrs.ttl with
      | none => exact absurd (noTtl given) (by simp)
      | some n => rw [ttl n given]

theorem same_of_asks {other : Attrs} (one : Asks env item attrs none after)
    (two : Asks env item other none after) : Same env item attrs other := by
  cases after with
  | none =>
    have empty {data : Attrs} (asks : Asks env item data none none) : isEmpty data = true := by
      by_contra nonempty
      rw [Asks, if_neg nonempty] at asks
      obtain ⟨rrset, there, -⟩ := asks
      exact absurd there (by simp)
    exact ⟨(empty one).trans (empty two).symm, fun nonempty => by simp [empty one] at nonempty⟩
  | some rrset =>
    obtain ⟨nonempty, records, ttl⟩ := full_of_asks one
    obtain ⟨alsoNonempty, alsoRecords, alsoTtl⟩ := full_of_asks two
    exact ⟨nonempty.trans alsoNonempty.symm,
      fun _ => ⟨records.trans alsoRecords.symm, ttl.trans alsoTtl.symm⟩⟩

end Own

section Rows

variable {method : Method} {ctx : Context} {selected : Finset Item} {rows : List Json}
  (valid : Valid (bulkRequest method ctx selected) rows)
include valid

theorem ttl_range {data : Entries} (member : data ∈ entries rows) {ttl : Int}
    (given : (validated (bulkRequest method ctx selected) data).ttl = some ttl) :
    0 ≤ ttl ∧ ttl ≤ maximumTtl := by
  obtain ⟨row, -, -, done⟩ := valid.of_mem member
  obtain ⟨fields, converted, -, final⟩ := steps_of_validateRow done
  obtain ⟨-, -, ttlDone, -⟩ := fields_of_toInternalValue converted
  obtain ⟨-, -, sameTtl, -, -⟩ := fields_of_validate final
  rw [given] at sameTtl
  rcases ttl_of_runTtl ttlDone with ⟨absent, -⟩ | ⟨n, isTtl, lower, upper⟩
  · simp [absent] at sameTtl
  · have same : ttl = n := Option.some.inj (sameTtl.trans isTtl)
    omega

private theorem ttl_nonneg {data : Entries} (member : data ∈ entries rows) {ttl : Int}
    (given : (validated (bulkRequest method ctx selected) data).ttl = some ttl) : 0 ≤ ttl :=
  (ttl_range valid member given).1

variable {env : Env} {session : Session} (agrees : BulkExact.Agrees env ctx session)
include agrees

omit valid in
theorem value_eq_lookup (item : Item) :
    value session.db env.name item = ctx.rrsets.lookup item := by
  simp [value, agrees.stored]

private theorem raw_of_stored {data : Entries} (member : data ∈ entries rows) {old : RRset}
    (found : value session.db env.name (storedItem data) = some old) :
    keyOfRow data = (some (.text (storedItem data).2), some (.text (storedItem data).1)) ∧
      storedItem data ∈ (bulkRequest method ctx selected).queryset := by
  have row := validRow_of_mem rfl valid member
  have stored : storedItem data ∈ ctx.rrsets.keys := by
    rw [Finmap.mem_keys, ← Finmap.lookup_isSome, ← value_eq_lookup agrees, found]
    rfl
  cases isKnown : knownInstance (bulkRequest method ctx selected) (keyOfRow data) with
  | none => exact absurd stored (row.unknown isKnown)
  | some known =>
    obtain ⟨same, raw⟩ := row.known known isKnown
    exact ⟨raw, same ▸ (knownInstance_some isKnown).2.1⟩

theorem unique_of_stored (checked : Checked (bulkRequest method ctx selected) rows)
    {data other : Entries} (member : data ∈ entries rows) (alsoMember : other ∈ entries rows)
    (same : storedItem other = storedItem data) {old : RRset}
    (found : value session.db env.name (storedItem data) = some old) : other = data := by
  obtain ⟨position, here⟩ := List.getElem?_of_mem member
  obtain ⟨another, there⟩ := List.getElem?_of_mem alsoMember
  have rowHere := valid.rowAt_iff.mpr here
  have rowThere := valid.rowAt_iff.mpr there
  by_cases apart : another = position
  · subst apart
    exact rowThere.unique rowHere
  · obtain ⟨raw, -⟩ := raw_of_stored valid agrees member found
    obtain ⟨rawOther, -⟩ := raw_of_stored valid agrees alsoMember (same ▸ found)
    have clash : Duplicate id rows position data :=
      ⟨another, other, rowThere, apart, by rw [readKey_id, readKey_id, raw, rawOther, same]⟩
    exact absurd clash ((checked_iff_of_valid valid).mp checked position data rowHere).1

end Rows

/-- What saving makes of the RRset that a row is stored as. -/
structure Outcome (env : Env) (request : ListSerializer.Request) (rows : List Json)
    (data : Entries) (before after : Option RRset) : Prop where
  emptied (old : RRset) (found : before = some old) (empty : isEmptyRow data = true) : after = none
  updated (old : RRset) (found : before = some old) (nonempty : isEmptyRow data = false) :
    Updated env (storedItem data) (validated request data) old after
  skipped (new : before = none) (other : Entries) (member : other ∈ entries rows)
    (same : storedItem other = storedItem data) (empty : isEmptyRow other = true) : after = none
  created (new : before = none) (nonempty : ∀ other ∈ entries rows,
      storedItem other = storedItem data → isEmptyRow other = false) :
    ∃ other ∈ entries rows, storedItem other = storedItem data ∧
      Created env (storedItem data) (validated request other) after

section Saved

variable {env : Env} {method : Method} {ctx : Context} {session session' : Session}
  {selected : Finset Item} {rows : List Json}
  (agrees : BulkExact.Agrees env ctx session) (selectable : selected ⊆ ctx.rrsets.keys)
  (valid : Valid (bulkRequest method ctx selected) rows)
  (checked : Checked (bulkRequest method ctx selected) rows)
include valid

private theorem outcome_of_listCreate (isPost : method = .post)
    (done : listCreate env session
      ((entries rows).map (validated (bulkRequest method ctx selected))) = .ok session')
    {data : Entries} (member : data ∈ entries rows) :
    Outcome env (bulkRequest method ctx selected) rows data
      (value session.db env.name (storedItem data))
      (value session'.db env.name (storedItem data)) := by
  have inList : validated (bulkRequest method ctx selected) data
      ∈ (entries rows).map (validated (bulkRequest method ctx selected)) :=
    List.mem_map_of_mem member
  have isKey := keyOf_validated rfl valid member
  have new := (fresh_of_listCreate done).2 _ inList
  have created := created_of_listCreate done _ inList
  rw [isKey] at new created
  have nonempty (other : Entries) (there : other ∈ entries rows) : isEmptyRow other = false :=
    (validRow_of_mem rfl valid there).not_post (by simpa [bulkRequest] using isPost)
  refine ⟨fun old found => ?_, fun old found => ?_, fun _ other there _ empty => ?_,
    fun _ _ => ⟨data, member, rfl, created⟩⟩
  · exact absurd (new.symm.trans found) (by simp)
  · exact absurd (new.symm.trans found) (by simp)
  · exact absurd empty (by simp [nonempty other there])

include agrees selectable checked

private theorem outcome_of_listUpdate (isUpdate : method ≠ .post)
    (done : listUpdate env session selected
      ((entries rows).map (validated (bulkRequest method ctx selected))) = .ok session')
    {data : Entries} (member : data ∈ entries rows) :
    Outcome env (bulkRequest method ctx selected) rows data
      (value session.db env.name (storedItem data))
      (value session'.db env.name (storedItem data)) := by
  have isKeys : storedItem data
      ∈ keys ((entries rows).map (validated (bulkRequest method ctx selected))) := by
    rw [keys, keys_eq rfl valid, List.mem_toFinset]
    exact List.mem_map_of_mem member
  have listed := listed_of_listUpdate done isKeys
  have mem_emptied : storedItem data
      ∈ emptied ((entries rows).map (validated (bulkRequest method ctx selected))) ↔
        ∃ other ∈ entries rows, storedItem other = storedItem data ∧ isEmptyRow other = true := by
    rw [emptied, List.mem_toFinset]
    constructor
    · intro inEmptied
      obtain ⟨attrs, inList, isKey⟩ := List.mem_map.mp inEmptied
      obtain ⟨there, empty⟩ := List.mem_filter.mp inList
      obtain ⟨other, inRows, rfl⟩ := List.mem_map.mp there
      refine ⟨other, inRows, (keyOf_validated rfl valid inRows).symm.trans isKey, ?_⟩
      rwa [isEmpty_validated rfl valid inRows] at empty
    · rintro ⟨other, inRows, same, empty⟩
      refine List.mem_map.mpr ⟨validated (bulkRequest method ctx selected) other,
        List.mem_filter.mpr ⟨List.mem_map_of_mem inRows, ?_⟩,
        (keyOf_validated rfl valid inRows).trans same⟩
      rwa [isEmpty_validated rfl valid inRows]
  have source : ∃ other ∈ entries rows, storedItem other = storedItem data ∧
      dataOf ((entries rows).map (validated (bulkRequest method ctx selected))) (storedItem data)
        = validated (bulkRequest method ctx selected) other := by
    obtain ⟨attrs, inList, isKey, same⟩ := data_of_keys isKeys
    obtain ⟨other, there, rfl⟩ := List.mem_map.mp inList
    exact ⟨other, there, (keyOf_validated rfl valid there).symm.trans isKey, same⟩
  have queried : (bulkRequest method ctx selected).queryset = selected := by
    simp [bulkRequest, isUpdate]
  have known {old : RRset} (found : value session.db env.name (storedItem data) = some old) :
      storedItem data ∈ selected := queried ▸ (raw_of_stored valid agrees member found).2
  have unknown (new : value session.db env.name (storedItem data) = none) :
      storedItem data ∉ selected := fun inSelected => by
    have there := Finmap.lookup_isSome.mpr (Finmap.mem_keys.mp (selectable inSelected))
    rw [← value_eq_lookup agrees, new] at there
    exact absurd there (by simp)
  refine ⟨fun old found empty => ?_, fun old found nonempty => ?_,
    fun new other there same empty => ?_, fun new nonempty => ?_⟩
  · exact listed.deleted (known found) (mem_emptied.mpr ⟨data, member, rfl, empty⟩)
  · have own (other : Entries) (there : other ∈ entries rows)
        (same : storedItem other = storedItem data) : other = data :=
      unique_of_stored valid agrees checked member there same found
    obtain ⟨other, there, same, isData⟩ := source
    rw [← own other there same, ← isData, own other there same]
    refine listed.updated (known found) (fun inEmptied => ?_) old found
    obtain ⟨third, inRows, equal, empty⟩ := mem_emptied.mp inEmptied
    rw [own third inRows equal, nonempty] at empty
    exact absurd empty (by simp)
  · exact (listed.skipped (unknown new) (mem_emptied.mpr ⟨other, there, same, empty⟩)).trans new
  · obtain ⟨other, there, same, isData⟩ := source
    refine ⟨other, there, same, isData ▸ (listed.created (unknown new) fun inEmptied => ?_).2⟩
    obtain ⟨third, inRows, equal, empty⟩ := mem_emptied.mp inEmptied
    rw [nonempty third inRows equal] at empty
    exact absurd empty (by simp)

theorem outcome_of_save
    (done : save env method session selected
      ((entries rows).map (validated (bulkRequest method ctx selected))) = .ok session')
    {data : Entries} (member : data ∈ entries rows) :
    Outcome env (bulkRequest method ctx selected) rows data
      (value session.db env.name (storedItem data))
      (value session'.db env.name (storedItem data)) := by
  cases method with
  | post => exact outcome_of_listCreate valid rfl done member
  | patch => exact outcome_of_listUpdate agrees selectable valid checked (by simp) done member
  | put => exact outcome_of_listUpdate agrees selectable valid checked (by simp) done member

theorem asks_iff_consistent
    (done : save env method session selected
      ((entries rows).map (validated (bulkRequest method ctx selected))) = .ok session') :
    (∀ data ∈ entries rows, Asks env (storedItem data)
        (validated (bulkRequest method ctx selected) data)
        (value session.db env.name (storedItem data))
        (value session'.db env.name (storedItem data))) ↔
      Consistent env (bulkRequest method ctx selected) session.db rows := by
  have outcome {data : Entries} (member : data ∈ entries rows) :=
    outcome_of_save agrees selectable valid checked done member
  have isEmpty_eq {data : Entries} (member : data ∈ entries rows) :=
    isEmpty_validated rfl valid member
  constructor
  · intro asks
    refine ⟨fun a b first second same new => ?_, fun data member old found nonempty given => ?_⟩
    · have one := asks a first
      have two := asks b second
      rw [← same, new] at two
      rw [new] at one
      exact same_of_asks one two
    · have own := asks data member
      rw [found] at own
      exact (asks_of_updated_iff ((outcome member).updated old found nonempty)
        ((isEmpty_eq member).trans nonempty) (fun _ => ttl_nonneg valid member)).mp own given
  · intro consistent data member
    cases stored : value session.db env.name (storedItem data) with
    | some old =>
      cases empty : isEmptyRow data with
      | true =>
        rw [Asks, isEmpty_eq member, if_pos empty]
        exact (outcome member).emptied old stored empty
      | false =>
        exact (asks_of_updated_iff ((outcome member).updated old stored empty)
          ((isEmpty_eq member).trans empty) (fun _ => ttl_nonneg valid member)).mpr
            (consistent.zero data member old stored empty)
    | none =>
      have alike {other : Entries} (there : other ∈ entries rows)
          (same : storedItem other = storedItem data) :=
        consistent.agree data other member there same.symm stored
      cases empty : isEmptyRow data with
      | true =>
        rw [Asks, isEmpty_eq member, if_pos empty]
        exact (outcome member).skipped stored data member rfl empty
      | false =>
        have nonempty := (isEmpty_eq member).trans empty
        obtain ⟨other, there, same, created⟩ := (outcome member).created stored
          fun third inRows equal => by
            rw [← isEmpty_eq inRows, ← (alike inRows equal).1, nonempty]
        exact asks_of_created created nonempty (alike there same)

end Saved

end DesecStack.Records.Applied
