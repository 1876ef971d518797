/- module: DesecStack/Records/BulkTable
   layer: main results
   digest: A bulk update makes the zone its items ask for, unless one asks for a new TTL of zero. -/

import DesecStack.Records.Applied

set_option autoImplicit false
set_option relaxedAutoImplicit false

namespace DesecStack.Records.BulkTable

open Library.PyText
open Library.SetOrder (VisitOrder)
open Library.Runs (bind_eq_ok_iff)
open Changes.Models
open Fields (Json)
open Serializer (Attrs Context maximumTtl)
open ListSerializer
open Save
open Rows Validated Accepted
open Writes Frames Values
open BulkExact (Method bulkRequest Agrees storedItem creates)
open Applied (Asks Same asks_of_created asks_of_updated_iff)

/-! ### Tables -/

/-- The zone that a list of items asks for: every item has what it asks for, and all other
RRsets are as before. -/
def Table (env : Env) (before : RRsets) (result : List Attrs) (after : RRsets) : Prop :=
  (∀ attrs ∈ result, Asks env (keyOf attrs) attrs (before.lookup (keyOf attrs))
    (after.lookup (keyOf attrs))) ∧
    ∀ item ∉ keys result, after.lookup item = before.lookup item

section Table

variable {env : Env} {item : Item} {attrs : Attrs} {before after other : Option RRset}

private theorem asks_unique (one : Asks env item attrs before after)
    (two : Asks env item attrs before other) : after = other := by
  unfold Asks at one two
  split at one
  · next empty =>
    rw [if_pos empty] at two
    exact one.trans two.symm
  · next nonempty =>
    rw [if_neg nonempty] at two
    obtain ⟨rrset, rfl, records, noRecords, ttl, noTtl⟩ := one
    obtain ⟨rrset', rfl, records', noRecords', ttl', noTtl'⟩ := two
    have sameRecords : rrset.records = rrset'.records := by
      cases given : attrs.records with
      | none => exact Option.some.inj ((noRecords given).symm.trans (noRecords' given))
      | some list => exact Except.ok.inj ((records list given).symm.trans (records' list given))
    have sameTtl : rrset.ttl = rrset'.ttl := by
      cases given : attrs.ttl with
      | none => exact Option.some.inj ((noTtl given).symm.trans (noTtl' given))
      | some n => exact Int.ofNat.inj ((ttl n given).trans (ttl' n given).symm)
    cases rrset
    cases rrset'
    rw [Option.some.injEq, RRset.mk.injEq]
    exact ⟨sameTtl, sameRecords⟩

private theorem table_unique {before one two : RRsets} {result : List Attrs}
    (first : Table env before result one) (second : Table env before result two) : one = two := by
  apply Finmap.ext_lookup
  intro item
  by_cases member : item ∈ keys result
  · obtain ⟨attrs, there, rfl⟩ := List.mem_map.mp (List.mem_toFinset.mp member)
    exact asks_unique (first.1 attrs there) (second.1 attrs there)
  · exact (first.2 item member).trans (second.2 item member).symm

private theorem keys_perm {result items : List Attrs} (perm : items.Perm result) :
    keys items = keys result :=
  List.toFinset_eq_of_perm _ _ (perm.map keyOf)

private theorem emptied_perm {result items : List Attrs} (perm : items.Perm result) :
    emptied items = emptied result :=
  List.toFinset_eq_of_perm _ _ ((perm.filter isEmpty).map keyOf)

private theorem Table.perm {before zone : RRsets} {result items : List Attrs}
    (perm : items.Perm result)
    (table : Table env before items zone) : Table env before result zone := by
  refine ⟨fun attrs member => table.1 attrs (perm.mem_iff.mpr member), fun item outside => ?_⟩
  apply table.2
  rwa [keys_perm perm]

end Table

/-! ### Lists -/

/-- Items as validation leaves them: one for each RRset, with all fields where it is new. -/
structure Listing (env : Env) (before : RRsets) (result : List Attrs) : Prop where
  nodup : (result.map keyOf).Nodup
  complete (attrs : Attrs) (member : attrs ∈ result) (nonempty : isEmpty attrs = false)
    (new : keyOf attrs ∉ before.keys) : Complete env (keyOf attrs) attrs
  ttl (attrs : Attrs) (member : attrs ∈ result) (n : Int) (given : attrs.ttl = some n) :
    0 ≤ n ∧ cleanRRset env.unicode (keyOf attrs) n.toNat = true

/-- No RRset excludes the given one. -/
def Apart (items : Finset Item) (item : Item) : Prop :=
  ∀ other ∈ items, other.2 = item.2 → (other.1 = cname ↔ item.1 = cname)

/-- The RRsets that are left after an update. -/
def remaining (before : RRsets) (result : List Attrs) : Finset Item :=
  (before.keys ∪ keys result) \ emptied result

/-- The models accept the records of all items, new RRsets clash with none that is left, and no
TTL of zero is given for a stored RRset that has another one. -/
structure Acceptable (env : Env) (before : RRsets) (result : List Attrs) : Prop where
  clean (attrs : Attrs) (member : attrs ∈ result) (nonempty : isEmpty attrs = false)
    (records : List Text) (given : attrs.records = some records) :
    ∃ new, cleanRecords env (keyOf attrs) records = .ok new
  apart (attrs : Attrs) (member : attrs ∈ result) (nonempty : isEmpty attrs = false)
    (new : keyOf attrs ∉ before.keys) : Apart (remaining before result) (keyOf attrs)
  zero (attrs : Attrs) (member : attrs ∈ result) (nonempty : isEmpty attrs = false)
    (given : attrs.ttl = some 0) (old : RRset)
    (found : before.lookup (keyOf attrs) = some old) : old.ttl = 0

/-- Whatever the order of the items and of the loops over sets, an update succeeds, and makes
the same zone, the table. -/
def YieldsTable (env : Env) (session : Session) (before : RRsets) (result : List Attrs) : Prop :=
  ∃ after, Table env before result after ∧
    ∀ (list : List Attrs) (items : VisitOrder Item) (contents : VisitOrder Text),
      list.Perm result → ∃ session',
        listUpdate { env with items, contents } session before.keys list = .ok session' ∧
          session'.db.lookup env.name = some after ∧
          ∀ d i, d ≠ env.name → value session'.db d i = value session.db d i

section Lists

variable {env : Env} {before : RRsets} {result list : List Attrs} {attrs : Attrs}

private theorem Listing.perm (listing : Listing env before result) (perm : list.Perm result) :
    Listing env before list where
  nodup := (perm.map keyOf).nodup_iff.mpr listing.nodup
  complete attrs member := listing.complete attrs (perm.subset member)
  ttl attrs member := listing.ttl attrs (perm.subset member)

private theorem Acceptable.perm (acceptable : Acceptable env before result)
    (perm : list.Perm result) :
    Acceptable env before list where
  clean attrs member := acceptable.clean attrs (perm.subset member)
  apart attrs member nonempty new := by
    rw [remaining, keys_perm perm, emptied_perm perm]
    exact acceptable.apart attrs (perm.subset member) nonempty new
  zero attrs member := acceptable.zero attrs (perm.subset member)

section Nodup

variable (nodup : (result.map keyOf).Nodup)
include nodup

private theorem eq_of_keyOf {a b : Attrs} (first : a ∈ result) (second : b ∈ result)
    (same : keyOf a = keyOf b) : a = b :=
  List.inj_on_of_nodup_map nodup first second same

private theorem dataOf_keyOf (member : attrs ∈ result) : dataOf result (keyOf attrs) = attrs := by
  obtain ⟨other, there, isKey, same⟩ :=
    data_of_keys (List.mem_toFinset.mpr (List.mem_map_of_mem member))
  rw [same]
  exact eq_of_keyOf nodup there member isKey

private theorem mem_emptied_iff (member : attrs ∈ result) :
    keyOf attrs ∈ emptied result ↔ isEmpty attrs = true := by
  rw [emptied, List.mem_toFinset, List.mem_map]
  constructor
  · rintro ⟨other, there, isKey⟩
    obtain ⟨there, empty⟩ := List.mem_filter.mp there
    rwa [← eq_of_keyOf nodup there member isKey]
  · intro empty
    exact ⟨attrs, List.mem_filter.mpr ⟨member, empty⟩, rfl⟩

end Nodup

private theorem mem_keys (member : attrs ∈ result) : keyOf attrs ∈ keys result :=
  List.mem_toFinset.mpr (List.mem_map_of_mem member)

private theorem created_cases {item : Item} (listing : Listing env before result)
    (member : item ∈ created before.keys result) :
    ∃ attrs ∈ result, keyOf attrs = item ∧ isEmpty attrs = false ∧ item ∉ before.keys := by
  simp only [created, Finset.mem_inter, Finset.mem_sdiff] at member
  obtain ⟨⟨inKeys, unknown⟩, -, nonempty⟩ := member
  obtain ⟨attrs, there, rfl⟩ := List.mem_map.mp (List.mem_toFinset.mp inKeys)
  refine ⟨attrs, there, rfl, ?_, fun known => unknown ⟨known, inKeys⟩⟩
  rwa [mem_emptied_iff listing.nodup there, Bool.not_eq_true] at nonempty

private theorem mem_created (listing : Listing env before result) (member : attrs ∈ result)
    (nonempty : isEmpty attrs = false) (new : keyOf attrs ∉ before.keys) :
    keyOf attrs ∈ created before.keys result := by
  have notEmptied : keyOf attrs ∉ emptied result := by
    rw [mem_emptied_iff listing.nodup member, nonempty]
    exact Bool.false_ne_true
  simp [created, mem_keys member, new, notEmptied]

private theorem remaining_eq (result : List Attrs) :
    remaining before result =
      (before.keys \ deleted before.keys result) ∪ created before.keys result := by
  have sub : emptied result ⊆ keys result := by
    intro item member
    obtain ⟨attrs, there, rfl⟩ := List.mem_map.mp (List.mem_toFinset.mp member)
    exact mem_keys (List.mem_of_mem_filter there)
  ext item
  have fewer := @sub item
  simp only [remaining, deleted, created, Finset.mem_sdiff, Finset.mem_union, Finset.mem_inter]
  tauto

end Lists

/-! ### Creations -/

section Creations

variable {env : Env} {l : List (Item × Attrs)}

private theorem not_blocks_iff {items : Finset Item} {item : Item} :
    ¬ Blocks items item ↔ item ∉ items ∧ Apart items item := by
  rw [Blocks, not_or, Apart]
  apply and_congr_right
  intro _
  push Not
  rfl

private theorem createAll_of_apart : ∀ {session : Session}, HasDomain env session →
    (∀ new ∈ l, Complete env new.1 new.2 ∧ Fits env new.1 new.2) →
    (l.map Prod.fst).Nodup → (∀ new ∈ l, new.1 ∉ items env session) →
    (∀ new ∈ l, Apart (items env session ∪ (l.map Prod.fst).toFinset) new.1) →
    ∃ session', createAll env session l = .ok session' ∧ HasDomain env session' ∧
      items env session' = items env session ∪ (l.map Prod.fst).toFinset := by
  induction l with
  | nil =>
    intro session present _ _ _ _
    exact ⟨session, rfl, present, (Finset.union_empty _).symm⟩
  | cons first rest ih =>
    intro session present sound nodup absent apart
    obtain ⟨fresh, nodup⟩ := List.nodup_cons.mp nodup
    obtain ⟨complete, fits⟩ := sound first (List.mem_cons_self ..)
    have free : ¬ Blocks (items env session) first.1 := by
      refine not_blocks_iff.mpr ⟨absent first (List.mem_cons_self ..), fun other there => ?_⟩
      exact apart first (List.mem_cons_self ..) other (Finset.mem_union_left _ there)
    obtain ⟨next, created, added, still⟩ := create_of_fits complete free present fits
    have union : items env next ∪ (rest.map Prod.fst).toFinset =
        items env session ∪ ((first :: rest).map Prod.fst).toFinset := by
      rw [added, List.map_cons, List.toFinset_cons, Finset.insert_union, Finset.union_insert]
    obtain ⟨last, later, after, whole⟩ := ih still
      (fun new member => sound new (List.mem_cons_of_mem _ member)) nodup
      (fun new member => by
        rw [added, Finset.mem_insert, not_or]
        exact ⟨fun same => fresh (same ▸ List.mem_map_of_mem member),
          absent new (List.mem_cons_of_mem _ member)⟩)
      (fun new member => union ▸ apart new (List.mem_cons_of_mem _ member))
    refine ⟨last, ?_, after, whole.trans union⟩
    simp only [createAll, List.foldlM_cons, bind_eq_ok_iff]
    exact ⟨next, created, later⟩

private theorem apart_of_createAll : ∀ {session session' : Session}, HasDomain env session →
    (∀ new ∈ l, Complete env new.1 new.2) → createAll env session l = .ok session' →
    ∀ new ∈ l, Apart (items env session ∪ (l.map Prod.fst).toFinset) new.1 := by
  induction l with
  | nil => simp
  | cons first rest ih =>
    intro session session' present complete done
    have own := complete first (List.mem_cons_self ..)
    simp only [createAll, List.foldlM_cons, bind_eq_ok_iff] at done
    obtain ⟨next, created, later⟩ := done
    have free : ¬ Blocks (items env session) first.1 := by
      intro blocked
      have violated := create_of_blocked own blocked
      simp [created, Violation] at violated
    have fits : Fits env first.1 first.2 := by
      by_contra unfit
      exact (create_of_unfit own free present unfit).2 next created
    obtain ⟨same, again, added, still⟩ := create_of_fits own free present fits
    obtain rfl := Except.ok.inj (created.symm.trans again)
    have others := ih still (fun new member => complete new (List.mem_cons_of_mem _ member)) later
    have union : items env next ∪ (rest.map Prod.fst).toFinset =
        items env session ∪ ((first :: rest).map Prod.fst).toFinset := by
      rw [added, List.map_cons, List.toFinset_cons, Finset.insert_union, Finset.union_insert]
    rw [union] at others
    intro new member
    rcases List.mem_cons.mp member with rfl | member
    · -- what is created later has found this one there, and does not clash with it
      intro other there subname
      rw [List.map_cons, List.toFinset_cons, Finset.union_insert, Finset.mem_insert,
        Finset.mem_union] at there
      rcases there with rfl | there | there
      · rfl
      · exact (not_blocks_iff.mp free).2 other there subname
      · obtain ⟨later, inRest, rfl⟩ := List.mem_map.mp (List.mem_toFinset.mp there)
        have own : new.1 ∈ items env session ∪ ((new :: rest).map Prod.fst).toFinset := by simp
        exact (others later inRest new.1 own subname.symm).symm
    · exact others new member

private theorem updates_of_clean (data : Item → Attrs) {l : List Item}
    (clean : ∀ item ∈ l, ∀ records, (data item).records = some records →
      ∃ new, cleanRecords env item records = .ok new)
    (fits : ∀ item ∈ l, ∀ n, (data item).ttl = some n →
      0 ≤ n ∧ cleanRRset env.unicode item n.toNat = true) :
    ∀ {session : Session}, HasDomain env session → (∀ item ∈ l, item ∈ items env session) →
      ∃ session', l.foldlM (fun session item => update env session item (data item)) session
        = .ok session' ∧ HasDomain env session' := by
  induction l with
  | nil =>
    intro session present _
    exact ⟨session, rfl, present⟩
  | cons item rest ih =>
    intro session _ there
    have own := there item (List.mem_cons_self ..)
    obtain ⟨old, found⟩ := Option.isSome_iff_exists.mp (mem_itemsOf.mp own)
    obtain ⟨next, updated⟩ := update_of_clean found (clean item (List.mem_cons_self ..))
      (fits item (List.mem_cons_self ..))
    have same := (update_spec env session item (data item)).2 next updated
    obtain ⟨_, still⟩ := Option.isSome_iff_exists.mp (mem_itemsOf.mp (same ▸ own))
    obtain ⟨last, later, present⟩ := ih
      (fun other member => clean other (List.mem_cons_of_mem _ member))
      (fun other member => fits other (List.mem_cons_of_mem _ member)) (lookup_of_value still)
      (fun other member => same ▸ there other (List.mem_cons_of_mem _ member))
    refine ⟨last, ?_, present⟩
    simp only [List.foldlM_cons, bind_eq_ok_iff]
    exact ⟨next, updated, later⟩

end Creations

/-! ### Updates -/

section Updates

variable {env : Env} {session session' : Session} {before : RRsets} {result : List Attrs}
  (stored : session.db.lookup env.name = some before) (listing : Listing env before result)
include stored

private theorem items_of_stored : items env session = before.keys := by
  simp [items, itemsOf, stored]

private theorem value_of_stored (item : Item) :
    value session.db env.name item = before.lookup item := by
  simp [value, stored]

private theorem hasDomain_of_stored : HasDomain env session := by
  simp [HasDomain, stored]

private theorem deletes_of_stored (result : List Attrs) : ∃ middle,
    (env.items.visit (deleted before.keys result)).foldlM (delete env) session = .ok middle ∧
      items env middle = before.keys \ deleted before.keys result ∧ HasDomain env middle := by
  have inside : deleted before.keys result ⊆ before.keys := by
    intro item member
    simp only [deleted, Finset.mem_inter] at member
    exact member.1.1
  obtain ⟨middle, done, left, present⟩ := deletes_of_subset
    (l := env.items.visit (deleted before.keys result)) (hasDomain_of_stored stored)
    (env.items.nodup _) fun item member => by
      rw [items_of_stored stored]
      exact inside ((env.items.mem_visit _ _).mp member)
  refine ⟨middle, done, ?_, present⟩
  rw [left, items_of_stored stored]
  congr 1
  ext item
  rw [List.mem_toFinset, env.items.mem_visit]

/-- What a list update creates. -/
def creations (env : Env) (before : RRsets) (result : List Attrs) : List (Item × Attrs) :=
  (env.items.visit (created before.keys result)).map fun item => (item, dataOf result item)

omit stored in
private theorem creations_keys : ((creations env before result).map Prod.fst) =
    env.items.visit (created before.keys result) := by
  rw [creations, List.map_map]
  exact List.map_id _

omit stored in
private theorem creations_toFinset : ((creations env before result).map Prod.fst).toFinset =
    created before.keys result := by
  ext item
  rw [creations_keys, List.mem_toFinset, env.items.mem_visit]

include listing

omit stored in
private theorem mem_creations {new : Item × Attrs} (member : new ∈ creations env before result) :
    new.2 ∈ result ∧ keyOf new.2 = new.1 ∧ isEmpty new.2 = false ∧ new.1 ∉ before.keys := by
  obtain ⟨item, there, rfl⟩ := List.mem_map.mp member
  obtain ⟨attrs, inList, rfl, nonempty, unknown⟩ :=
    created_cases listing ((env.items.mem_visit _ _).mp there)
  have own := dataOf_keyOf listing.nodup inList
  rw [own]
  exact ⟨inList, rfl, nonempty, unknown⟩

omit stored in
private theorem complete_of_creations {new : Item × Attrs}
    (member : new ∈ creations env before result) :
    Complete env new.1 new.2 := by
  obtain ⟨inList, isKey, nonempty, unknown⟩ := mem_creations listing member
  rw [← isKey] at unknown ⊢
  exact listing.complete new.2 inList nonempty unknown

private theorem listUpdate_of_acceptable (acceptable : Acceptable env before result) :
    ∃ session', listUpdate env session before.keys result = .ok session' ∧
      HasDomain env session' := by
  obtain ⟨middle, deletes, left, present⟩ := deletes_of_stored stored result
  have union : items env middle ∪ ((creations env before result).map Prod.fst).toFinset =
      remaining before result := by
    rw [left, creations_toFinset, ← remaining_eq]
  have sound (new : Item × Attrs) (member : new ∈ creations env before result) :
      Complete env new.1 new.2 ∧ Fits env new.1 new.2 := by
    obtain ⟨inList, isKey, nonempty, unknown⟩ := mem_creations listing member
    have complete := complete_of_creations listing member
    obtain ⟨records, ttl, given, -⟩ := id complete
    refine ⟨complete, ?_⟩
    rw [Fits, given, Option.getD_some, ← isKey]
    exact acceptable.clean new.2 inList nonempty records given
  have nodup : ((creations env before result).map Prod.fst).Nodup := by
    rw [creations_keys]
    exact env.items.nodup _
  obtain ⟨next, creates, present, added⟩ := createAll_of_apart present sound nodup
    (fun new member => by
      rw [left]
      exact fun old => (mem_creations listing member).2.2.2 (Finset.mem_sdiff.mp old).1)
    (fun new member => by
      obtain ⟨inList, isKey, nonempty, unknown⟩ := mem_creations listing member
      rw [union, ← isKey]
      exact acceptable.apart new.2 inList nonempty (isKey ▸ unknown))
  have source (item : Item) (member : item ∈ env.items.visit (updatedItems before.keys result)) :
      item ∈ before.keys ∧ ∃ attrs ∈ result, keyOf attrs = item ∧ isEmpty attrs = false ∧
        dataOf result item = attrs := by
    simp only [env.items.mem_visit, updatedItems, Finset.mem_inter, Finset.mem_sdiff] at member
    obtain ⟨⟨known, inKeys⟩, -, nonempty⟩ := member
    obtain ⟨attrs, there, rfl⟩ := List.mem_map.mp (List.mem_toFinset.mp inKeys)
    rw [mem_emptied_iff listing.nodup there, Bool.not_eq_true] at nonempty
    exact ⟨known, attrs, there, rfl, nonempty, dataOf_keyOf listing.nodup there⟩
  obtain ⟨last, updates, present⟩ := updates_of_clean (dataOf result)
    (l := env.items.visit (updatedItems before.keys result))
    (fun item member => by
      obtain ⟨-, attrs, there, rfl, nonempty, same⟩ := source item member
      rw [same]
      exact acceptable.clean attrs there nonempty)
    (fun item member => by
      obtain ⟨-, attrs, there, rfl, -, same⟩ := source item member
      rw [same]
      exact listing.ttl attrs there)
    present
    (fun item member => by
      rw [added, union, remaining, Finset.mem_sdiff]
      obtain ⟨known, attrs, there, rfl, nonempty, -⟩ := source item member
      refine ⟨Finset.mem_union_left _ known, ?_⟩
      rw [mem_emptied_iff listing.nodup there, nonempty]
      exact Bool.false_ne_true)
  refine ⟨last, ?_, present⟩
  simp only [createAll, creations, List.foldlM_map] at creates
  simp only [listUpdate, bind_eq_ok_iff]
  exact ⟨middle, deletes, next, creates, updates⟩

variable (done : listUpdate env session before.keys result = .ok session')
include done

private theorem apart_of_listUpdate {attrs : Attrs} (member : attrs ∈ result)
    (nonempty : isEmpty attrs = false) (new : keyOf attrs ∉ before.keys) :
    Apart (remaining before result) (keyOf attrs) := by
  obtain ⟨middle, deletes, left, present⟩ := deletes_of_stored stored result
  simp only [listUpdate, bind_eq_ok_iff] at done
  obtain ⟨other, again, next, creates, -⟩ := done
  obtain rfl := Except.ok.inj (deletes.symm.trans again)
  have all : createAll env middle (creations env before result) = .ok next := by
    simp only [createAll, creations, List.foldlM_map]
    exact creates
  have apart := apart_of_createAll present (fun new => complete_of_creations listing) all
  rw [left, creations_toFinset, ← remaining_eq] at apart
  apply apart (keyOf attrs, dataOf result (keyOf attrs))
  apply List.mem_map_of_mem
  exact (env.items.mem_visit _ _).mpr (mem_created listing member nonempty new)

omit listing in
private theorem listed_of_done {attrs : Attrs} (member : attrs ∈ result) :
    Listed env before.keys result (keyOf attrs) (before.lookup (keyOf attrs))
      (value session'.db env.name (keyOf attrs)) := by
  have listed := listed_of_listUpdate done (mem_keys member)
  rwa [value_of_stored stored] at listed

private theorem clean_of_listUpdate {attrs : Attrs} (member : attrs ∈ result)
    (nonempty : isEmpty attrs = false) {records : List Text}
    (given : attrs.records = some records) :
    ∃ new, cleanRecords env (keyOf attrs) records = .ok new := by
  have listed := listed_of_done stored done member
  have notEmptied : keyOf attrs ∉ emptied result := by
    rw [mem_emptied_iff listing.nodup member, nonempty]
    exact Bool.false_ne_true
  by_cases known : keyOf attrs ∈ before.keys
  · obtain ⟨old, found⟩ := Option.isSome_iff_exists.mp
      (Finmap.lookup_isSome.mpr (Finmap.mem_keys.mp known))
    obtain ⟨new, clean, -⟩ := listed.updated known notEmptied old found
    rw [dataOf_keyOf listing.nodup member] at clean
    exact ⟨new, clean records given⟩
  · obtain ⟨-, list, ttl, new, isList, -, -, clean, -⟩ := listed.created known notEmptied
    rw [dataOf_keyOf listing.nodup member] at isList
    obtain rfl := Option.some.inj (isList.symm.trans given)
    exact ⟨new, clean⟩

private theorem asks_iff_of_listUpdate {attrs : Attrs} (member : attrs ∈ result) :
    Asks env (keyOf attrs) attrs (before.lookup (keyOf attrs))
        (value session'.db env.name (keyOf attrs)) ↔
      (isEmpty attrs = false → attrs.ttl = some 0 →
        ∀ old, before.lookup (keyOf attrs) = some old → old.ttl = 0) := by
  have listed := listed_of_done stored done member
  have own := dataOf_keyOf listing.nodup member
  have emptied_iff := mem_emptied_iff listing.nodup member
  cases found : before.lookup (keyOf attrs) with
  | none =>
    have unknown : keyOf attrs ∉ before.keys := fun known => by
      have there := Finmap.lookup_isSome.mpr (Finmap.mem_keys.mp known)
      simp [found] at there
    refine iff_of_true ?_ (by simp)
    cases empty : isEmpty attrs with
    | true =>
      rw [Asks, if_pos empty, listed.skipped unknown (emptied_iff.mpr empty), found]
    | false =>
      obtain ⟨-, created⟩ := listed.created unknown (by simp [emptied_iff, empty])
      rw [own] at created
      exact asks_of_created created empty ⟨rfl, fun _ => ⟨rfl, rfl⟩⟩
  | some old =>
    have known : keyOf attrs ∈ before.keys :=
      Finmap.mem_keys.mpr (Finmap.lookup_isSome.mp (by simp [found]))
    cases empty : isEmpty attrs with
    | true =>
      rw [Asks, if_pos empty, listed.deleted known (emptied_iff.mpr empty)]
      simp
    | false =>
      have updated := listed.updated known (by simp [emptied_iff, empty]) old found
      rw [own] at updated
      rw [asks_of_updated_iff updated empty fun n given => (listing.ttl attrs member n given).1]
      simp

end Updates

/-! ### The table -/

section Result

variable {env : Env} {session : Session} {before : RRsets} {result : List Attrs}
  (stored : session.db.lookup env.name = some before) (listing : Listing env before result)
include stored listing

private theorem table_iff_of_listUpdate {session' : Session} {after : RRsets}
    (done : listUpdate env session before.keys result = .ok session')
    (isAfter : session'.db.lookup env.name = some after) :
    Table env before result after ↔ ∀ attrs ∈ result, isEmpty attrs = false →
      attrs.ttl = some 0 → ∀ old, before.lookup (keyOf attrs) = some old → old.ttl = 0 := by
  have each {attrs : Attrs} (member : attrs ∈ result) :=
    asks_iff_of_listUpdate stored listing done member
  simp only [value_of_stored isAfter] at each
  have frame : ∀ item ∉ keys result, after.lookup item = before.lookup item := by
    intro item outside
    have confined : Confined env.name (· ∈ keys result) session.db session'.db :=
      confined_of_listUpdate (fun attrs member => mem_keys member) done
    rw [← value_of_stored isAfter, ← value_of_stored stored]
    exact confined.value_eq outside
  constructor
  · intro table attrs member
    exact (each member).mp (table.1 attrs member)
  · intro zero
    exact ⟨fun attrs member => (each member).mpr (zero attrs member), frame⟩

private theorem yieldsTable_of_acceptable (acceptable : Acceptable env before result) :
    YieldsTable env session before result := by
  have zone (list : List Attrs) (items : VisitOrder Item) (contents : VisitOrder Text)
      (perm : list.Perm result) : ∃ session' after,
        listUpdate { env with items, contents } session before.keys list = .ok session' ∧
          session'.db.lookup env.name = some after ∧ Table env before result after := by
    have own : Listing { env with items, contents } before list := by
      obtain ⟨nodup, complete, ttl⟩ := listing.perm perm
      exact ⟨nodup, complete, ttl⟩
    have fine := acceptable.perm perm
    have stored' : session.db.lookup { env with items, contents }.name = some before := stored
    obtain ⟨session', done, present⟩ := listUpdate_of_acceptable stored' own
      ⟨fine.clean, fine.apart, fine.zero⟩
    obtain ⟨after, isAfter⟩ := Option.isSome_iff_exists.mp present
    have table : Table env before list after :=
      (table_iff_of_listUpdate stored' own done isAfter).mpr fine.zero
    exact ⟨session', after, done, isAfter, table.perm perm⟩
  obtain ⟨-, after, -, -, table⟩ := zone result env.items env.contents (.refl _)
  refine ⟨after, table, fun list items contents perm => ?_⟩
  obtain ⟨session', other, done, isOther, same⟩ := zone list items contents perm
  obtain rfl := table_unique table same
  refine ⟨session', done, isOther, fun d i foreign => ?_⟩
  have confined : Confined env.name (fun _ => True) session.db session'.db :=
    @confined_of_listUpdate { env with items, contents } session session' list (fun _ => True)
      (fun _ _ => trivial) _ done
  by_contra changed
  exact foreign (confined d i changed).1

private theorem acceptable_of_yieldsTable (yields : YieldsTable env session before result) :
    Acceptable env before result := by
  obtain ⟨after, table, all⟩ := yields
  obtain ⟨session', done, isAfter, -⟩ := all result env.items env.contents (.refl _)
  have zero := (table_iff_of_listUpdate stored listing done isAfter).mp table
  exact ⟨fun attrs member nonempty records given =>
      clean_of_listUpdate stored listing done member nonempty given,
    fun attrs member nonempty new =>
      apart_of_listUpdate stored listing done member nonempty new, zero⟩

end Result

section Accepted

variable {env : Env} {method : Method} {ctx : Context} {session : Session} {rows : List Json}
  {result : List Attrs}

/-- What is accepted has a complete item for each new RRset that gets records. -/
theorem listing_of_accepted (agrees : Agrees env ctx session) (update : method ≠ .post)
    (accepted : toInternalValue (bulkRequest method ctx ctx.rrsets.keys) (.list rows) = .ok result)
    (distinct : (result.map keyOf).Nodup) : Listing env ctx.rrsets result := by
  obtain ⟨valid, -, rfl⟩ := toInternalValue_ok_iff.mp accepted
  have queried : (bulkRequest method ctx ctx.rrsets.keys).queryset = ctx.rrsets.keys := by
    simp [bulkRequest, update]
  refine ⟨distinct, fun attrs member nonempty new => ?_, fun attrs member n given => ?_⟩
  · obtain ⟨data, there, rfl⟩ := List.mem_map.mp member
    rw [BulkExact.keyOf_validated rfl valid there] at new ⊢
    rw [BulkExact.isEmpty_validated rfl valid there] at nonempty
    apply BulkExact.complete_of_creates rfl agrees.unicode valid
    have row := BulkExact.validRow_of_mem rfl valid there
    have unknown : knownInstance (bulkRequest method ctx ctx.rrsets.keys) (keyOfRow data)
      = none := by
      by_contra found
      obtain ⟨known, found⟩ := Option.ne_none_iff_exists'.mp found
      obtain ⟨same, -⟩ := row.known known found
      exact new (queried ▸ same ▸ (knownInstance_some found).2.1)
    exact List.mem_filter.mpr ⟨there, by simp [creates, nonempty, unknown]⟩
  · obtain ⟨data, there, rfl⟩ := List.mem_map.mp member
    obtain ⟨lower, upper⟩ := Applied.ttl_range valid there given
    refine ⟨lower, ?_⟩
    rw [BulkExact.keyOf_validated rfl valid there, agrees.unicode]
    apply (BulkExact.validRow_of_mem rfl valid there).clean
    simp only [maximumTtl] at upper
    simp only [ttlMax]
    omega

/-- A list that is accepted makes the zone it asks for, in any order, exactly if its items are
acceptable: only a TTL of zero for an RRset that has another one is lost where it is saved. -/
theorem bulk_table_iff (agrees : Agrees env ctx session) (update : method ≠ .post)
    (accepted : toInternalValue (bulkRequest method ctx ctx.rrsets.keys) (.list rows) = .ok result)
    (distinct : (result.map keyOf).Nodup) :
    YieldsTable env session ctx.rrsets result ↔ Acceptable env ctx.rrsets result := by
  have listing := listing_of_accepted agrees update accepted distinct
  exact ⟨acceptable_of_yieldsTable agrees.stored listing,
    yieldsTable_of_acceptable agrees.stored listing⟩

end Accepted

section Zero

/-- A domain without a minimum TTL, with an `A` RRset at `www`. -/
private def lowZone : RRsets :=
  Finmap.insert ("A".toList, "www".toList) ⟨3600, {"192.0.2.1".toList}⟩ ∅

private def lowDns : Serializer.Dns where
  validationTypes := {"A".toList, "TXT".toList}
  canonical content _ := .ok content
  wire _ content := content
  nameTooLong _ _ := false

private def lowContext : Context where
  unicode := .plain
  dns := lowDns
  domainName := "a.example".toList
  rrsets := lowZone
  minimumTtl := 0
  isLocallyRegistrable := false
  blockedSubnet _ := false
  hasObjectPermission _ := true
  isPost := false
  subnameKwarg := none

private noncomputable def lowEnv : Env where
  unicode := .plain
  dns := lowDns
  cascade := ⟨default, default⟩
  contents := default
  items := default
  name := "a.example".toList

private def lowSession : Session := ⟨Finmap.insert "a.example".toList lowZone ∅, []⟩

private theorem lowAgrees : Agrees lowEnv lowContext lowSession := ⟨rfl, Finmap.lookup_insert _⟩

private def ttlRow (ttl : Int) : Json :=
  .dict [("subname".toList, .str "www".toList), ("type".toList, .str "A".toList),
    ("ttl".toList, .int ttl)]

private def newRow : Json :=
  .dict [("subname".toList, .str "new".toList), ("type".toList, .str "TXT".toList),
    ("ttl".toList, .int 0), ("records".toList, .list [.str "0".toList])]

private def ttlItem (ttl : Int) : Attrs := ⟨some "www".toList, none, some ttl, some "A".toList⟩

private def newItem : Attrs :=
  ⟨some "new".toList, some ["0".toList], some 0, some "TXT".toList⟩

private theorem accepted_zero : toInternalValue
    (bulkRequest .patch lowContext lowContext.rrsets.keys) (.list [ttlRow 0]) =
      .ok [ttlItem 0] :=
  rfl

private theorem accepted_new : toInternalValue
    (bulkRequest .patch lowContext lowContext.rrsets.keys) (.list [ttlRow 600, newRow]) =
      .ok [ttlItem 600, newItem] :=
  rfl

/-- A given TTL replaces the old one, and a TTL of zero is saved with a new RRset. -/
theorem bulk_table_iff_new :
    YieldsTable lowEnv lowSession lowContext.rrsets [ttlItem 600, newItem] := by
  refine (bulk_table_iff lowAgrees (by decide) accepted_new (by decide)).mpr ⟨?_, ?_, ?_⟩
  · intro attrs member _ records given
    rcases List.mem_pair.mp member with rfl | rfl
    · exact absurd given (by simp [ttlItem])
    · obtain rfl := Option.some.inj given
      exact ⟨_, rfl⟩
  · intro attrs member _ new
    rcases List.mem_pair.mp member with rfl | rfl
    · exact absurd new (by decide)
    · unfold Apart
      decide
  · intro attrs member _ given old found
    rcases List.mem_pair.mp member with rfl | rfl
    · exact absurd given (by decide)
    · have absent : lowContext.rrsets.lookup (keyOf newItem) = none := rfl
      exact absurd (found.symm.trans absent) (by simp)

/-- A TTL of zero for a stored RRset is accepted, but not saved. -/
theorem zero_ttl_ignored : Agrees lowEnv lowContext lowSession ∧
    toInternalValue (bulkRequest .patch lowContext lowContext.rrsets.keys) (.list [ttlRow 0]) =
      .ok [ttlItem 0] ∧
    ([ttlItem 0].map keyOf).Nodup ∧
    ¬ YieldsTable lowEnv lowSession lowContext.rrsets [ttlItem 0] := by
  have distinct : ([ttlItem 0].map keyOf).Nodup := List.nodup_singleton _
  refine ⟨lowAgrees, accepted_zero, distinct, fun yields => ?_⟩
  have acceptable := acceptable_of_yieldsTable lowAgrees.stored
    (listing_of_accepted lowAgrees (by decide) accepted_zero distinct) yields
  have zero := acceptable.zero (ttlItem 0) (List.mem_singleton_self _) rfl rfl
    ⟨3600, {"192.0.2.1".toList}⟩ (Finmap.lookup_insert _)
  exact absurd zero (by decide)

end Zero

end DesecStack.Records.BulkTable
