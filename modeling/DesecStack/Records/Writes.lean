/- module: DesecStack/Records/Writes
   layer: lemmas
   digest: What saving RRsets does to the set of RRsets of a domain, and how it can fail. -/

import DesecStack.Records.Save
import DesecStack.Library.Runs

set_option autoImplicit false
set_option relaxedAutoImplicit false

namespace DesecStack.Records.Writes

open Library.PyText
open Library.SetOrder (VisitOrder mem_visit_iff visit_empty)
open Library.Runs (bind_eq_ok_iff)
open Changes.Models
open Serializer (Attrs)
open Save

/-- An RRset cannot be added: it is there, or one of a type that excludes it. -/
def Blocks (items : Finset Item) (item : Item) : Prop :=
  item ∈ items ∨ ∃ other ∈ items, other.2 = item.2 ∧ ¬ (other.1 = cname ↔ item.1 = cname)

/-- The constraint `cname_exclusivity` on a whole domain. -/
def Exclusive (items : Finset Item) : Prop :=
  ∀ a ∈ items, ∀ b ∈ items, a.2 = b.2 → (a.1 = cname ↔ b.1 = cname)

/-- The errors that a constraint on RRsets gives rise to. -/
def Violation {α : Type} (result : Except SaveError α) : Prop :=
  result = .error .unique ∨ result = .error .exclusion

variable {env : Env}

private theorem exclusive_insert {items : Finset Item} (exclusive : Exclusive items) {item : Item}
    (free : ¬ Blocks items item) : Exclusive (insert item items) := by
  have fits (other : Item) (member : other ∈ items) (same : other.2 = item.2) :
      (other.1 = cname ↔ item.1 = cname) := by
    by_contra differ
    exact free (Or.inr ⟨other, member, same, differ⟩)
  intro a ha b hb same
  rcases Finset.mem_insert.mp ha with rfl | oldA <;> rcases Finset.mem_insert.mp hb with rfl | oldB
  · rfl
  · exact (fits b oldB same.symm).symm
  · exact fits a oldA same
  · exact exclusive a oldA b oldB same

theorem exclusive_subset {items fewer : Finset Item} (exclusive : Exclusive items)
    (sub : fewer ⊆ items) : Exclusive fewer :=
  fun a ha b hb => exclusive a (sub ha) b (sub hb)

/-- The RRsets of the domain in a session. -/
def items (env : Env) (session : Session) : Finset Item := itemsOf session.db env.name

theorem write_ok {session session' : Session} {operation : Operation}
    (done : write env session operation = .ok session') :
    ∃ sent, perform env.unicode env.cascade session.db operation = some (session'.db, sent) := by
  unfold write at done
  split at done
  · next db sent performed =>
    obtain rfl := Except.ok.inj done
    exact ⟨sent, performed⟩
  · exact absurd done (by simp)

private theorem write_not_violation (session : Session) (operation : Operation) :
    ¬ Violation (write env session operation) := by
  unfold write Violation
  split <;> simp

private theorem items_put {session : Session} {item : Item} {old : RRset} (new : RRset)
    (found : value session.db env.name item = some old) :
    itemsOf (put session.db env.name item (some new)) env.name = items env session := by
  rw [itemsOf_put (lookup_of_value found)]
  simp only [Option.isSome_some, if_true, items]
  exact Finset.insert_eq_of_mem (mem_itemsOf.mpr (by simp [found]))

/-- Writes to the RRs of an RRset, and a save of the RRset. -/
inductive Inner (env : Env) : Operation → Prop where
  | deleteRR (item : Item) (content : Text) : Inner env (.deleteRR env.name item content)
  | bulkCreateRRs (item : Item) (contents : List Text) :
      Inner env (.bulkCreateRRs env.name item contents)
  | saveRRset (item : Item) (ttl : Nat) : Inner env (.saveRRset env.name item ttl)

private theorem items_of_inner {session session' : Session} {operation : Operation}
    (inner : Inner env operation) (done : write env session operation = .ok session') :
    items env session' = items env session := by
  obtain ⟨sent, performed⟩ := write_ok done
  cases inner with
  | deleteRR item content =>
    simp only [perform, Option.bind_eq_some_iff, Option.ite_none_right_eq_some,
      Option.some.injEq, Prod.mk.injEq] at performed
    obtain ⟨old, found, -, same, -⟩ := performed
    rw [← items_put _ found, same, items]
  | bulkCreateRRs item contents =>
    simp only [perform, Option.bind_eq_some_iff] at performed
    obtain ⟨old, found, performed⟩ := performed
    split at performed
    · obtain ⟨same, -⟩ := Prod.mk.inj (Option.some.inj performed)
      rw [items, items, same]
    · simp only [Option.ite_none_right_eq_some, Option.some.injEq, Prod.mk.injEq] at performed
      obtain ⟨-, same, -⟩ := performed
      rw [← items_put _ found, same, items]
  | saveRRset item ttl =>
    simp only [perform, Option.bind_eq_some_iff, Option.ite_none_right_eq_some,
      Option.some.injEq, Prod.mk.injEq] at performed
    obtain ⟨old, found, -, same, -⟩ := performed
    rw [← items_put _ found, same, items]

private theorem items_of_inners {operations : List Operation} :
    ∀ {session session' : Session}, (∀ operation ∈ operations, Inner env operation) →
      writeAll env session operations = .ok session' →
      items env session' = items env session := by
  induction operations with
  | nil =>
    intro session session' _ done
    simp only [writeAll, List.foldlM_nil, pure, Except.pure, Except.ok.injEq] at done
    rw [done]
  | cons operation rest ih =>
    intro session session' inner done
    simp only [writeAll, List.foldlM_cons, bind_eq_ok_iff] at done
    obtain ⟨next, first, later⟩ := done
    rw [ih (fun o member => inner o (List.mem_cons_of_mem _ member)) later,
      items_of_inner (inner operation (List.mem_cons_self ..)) first]

private theorem violation_bind {α β : Type} {x : Except SaveError α} {f : α → Except SaveError β} :
    Violation (x >>= f) ↔ Violation x ∨ ∃ a, x = .ok a ∧ Violation (f a) := by
  cases x <;> simp [Violation, bind, Except.bind]

private theorem writeAll_not_violation {operations : List Operation} :
    ∀ session : Session, ¬ Violation (writeAll env session operations) := by
  induction operations with
  | nil =>
    intro session
    simp [writeAll, Violation, pure, Except.pure]
  | cons operation rest ih =>
    intro session
    simp only [writeAll, List.foldlM_cons, violation_bind, not_or, not_exists, not_and]
    exact ⟨write_not_violation session operation, fun next _ => ih next⟩

private theorem cleanRecords_not_violation (item : Item) (records : List Text) :
    ¬ Violation (cleanRecords env item records) := by
  unfold cleanRecords Violation
  split <;> simp

private theorem saveRecords_not_violation (session : Session) (item : Item) (records : List Text) :
    ¬ Violation (saveRecords env session item records) := by
  simp only [saveRecords, violation_bind, not_or, not_exists, not_and]
  exact ⟨cleanRecords_not_violation item records, fun new _ =>
    ⟨writeAll_not_violation session, fun next _ => write_not_violation next _⟩⟩

private theorem items_of_saveRecords {session session' : Session} {item : Item}
    {records : List Text}
    (done : saveRecords env session item records = .ok session') :
    items env session' = items env session := by
  simp only [saveRecords, bind_eq_ok_iff] at done
  obtain ⟨new, -, next, deleted, created⟩ := done
  rw [items_of_inner (.bulkCreateRRs item _) created, items_of_inners _ deleted]
  intro operation member
  obtain ⟨content, -, rfl⟩ := List.mem_map.mp member
  exact .deleteRR item content

private theorem saveTtl_spec (session : Session) (item : Item) (ttl : Option Int) :
    ¬ Violation (saveTtl env session item ttl) ∧
      ∀ session', saveTtl env session item ttl = .ok session' →
        items env session' = items env session := by
  unfold saveTtl
  split
  · exact ⟨by simp [Violation], fun session' done => by rw [Except.ok.inj done]⟩
  · split
    · exact ⟨by simp [Violation], fun session' done => by rw [Except.ok.inj done]⟩
    · split
      · exact ⟨by simp [Violation], fun session' done => absurd done (by simp)⟩
      · exact ⟨write_not_violation _ _, fun session' done =>
          items_of_inner (.saveRRset item _) done⟩

/-- An update keeps the RRsets of the domain, and breaks no constraint on them. -/
theorem update_spec (env : Env) (session : Session) (item : Item) (attrs : Attrs) :
    ¬ Violation (update env session item attrs) ∧
      ∀ session', update env session item attrs = .ok session' →
        items env session' = items env session := by
  simp only [update, violation_bind, not_or, not_exists, not_and, bind_eq_ok_iff]
  cases attrs.records with
  | none =>
    refine ⟨⟨by simp [Violation], fun next done => ?_⟩, ?_⟩
    · exact (saveTtl_spec next item attrs.ttl).1
    · rintro session' ⟨next, done, later⟩
      rw [(saveTtl_spec next item attrs.ttl).2 session' later, Except.ok.inj done]
  | some records =>
    refine ⟨⟨saveRecords_not_violation session item records, fun next done => ?_⟩, ?_⟩
    · exact (saveTtl_spec next item attrs.ttl).1
    · rintro session' ⟨next, done, later⟩
      rw [(saveTtl_spec next item attrs.ttl).2 session' later, items_of_saveRecords done]

/-- The domain is in the database. -/
def HasDomain (env : Env) (session : Session) : Prop := (session.db.lookup env.name).isSome

private theorem delete_of_mem {session : Session} {item : Item}
    (member : item ∈ items env session) :
    ∃ session', delete env session item = .ok session' ∧
      items env session' = (items env session).erase item ∧ HasDomain env session' := by
  obtain ⟨rrset, found⟩ := Option.isSome_iff_exists.mp (mem_itemsOf.mp member)
  have present := lookup_of_value found
  cases written : delete env session item with
  | error failure => simp [delete, write, perform, found] at written
  | ok session' =>
    obtain ⟨sent, performed⟩ := write_ok written
    simp only [perform, found, Option.map_some, Option.some.injEq, Prod.mk.injEq] at performed
    refine ⟨session', rfl, ?_, ?_⟩
    · simp [items, ← performed.1, itemsOf_put present]
    · simpa [HasDomain, ← performed.1] using present

theorem deletes_of_subset {l : List Item} :
    ∀ {session : Session}, HasDomain env session → l.Nodup
      → (∀ item ∈ l, item ∈ items env session) →
      ∃ session', l.foldlM (delete env) session = .ok session' ∧
        items env session' = items env session \ l.toFinset ∧ HasDomain env session' := by
  induction l with
  | nil =>
    intro session present _ _
    exact ⟨session, rfl, by simp, present⟩
  | cons item rest ih =>
    intro session _ nodup members
    obtain ⟨absent, nodup⟩ := List.nodup_cons.mp nodup
    obtain ⟨next, first, erased, present⟩ := delete_of_mem (members item (List.mem_cons_self ..))
    obtain ⟨last, later, removed, present⟩ := ih present nodup fun other member => by
      rw [erased]
      refine Finset.mem_erase.mpr ⟨fun same => absent (same ▸ member), ?_⟩
      exact members other (List.mem_cons_of_mem _ member)
    refine ⟨last, by simp [List.foldlM_cons, bind, Except.bind, first, later], ?_, present⟩
    rw [removed, erased, List.toFinset_cons]
    ext other
    simp only [Finset.mem_sdiff, Finset.mem_erase, Finset.mem_insert]
    tauto

private theorem blocks_iff (session : Session) (item : Item) :
    Blocks (items env session) item ↔
      ¬ cnameExclusivity ((session.db.lookup env.name).getD ∅) item ∨
        item ∈ ((session.db.lookup env.name).getD ∅).keys := by
  simp only [Blocks, items, itemsOf, cnameExclusivity]
  push Not
  rw [or_comm]

private theorem createRRset_of_blocked {session : Session} {item : Item}
    (blocked : Blocks (items env session) item) (ttl : Int) :
    Violation (createRRset env session item ttl) := by
  rw [blocks_iff] at blocked
  unfold createRRset Violation
  by_cases fits : cnameExclusivity ((session.db.lookup env.name).getD ∅) item
  · simp [fits, blocked.resolve_left (not_not_intro fits)]
  · simp [fits]

private theorem createRRset_of_free {session : Session} {item : Item} {ttl : Nat}
    (free : ¬ Blocks (items env session) item) (present : HasDomain env session)
    (clean : cleanRRset env.unicode item ttl = true) :
    ∃ session', createRRset env session item (Int.ofNat ttl) = .ok session' ∧
      session'.db = put session.db env.name item (some ⟨ttl, ∅⟩) := by
  rw [blocks_iff] at free
  push Not at free
  obtain ⟨rrsets, found⟩ := Option.isSome_iff_exists.mp present
  simp only [found, Option.getD_some] at free
  have absent : rrsets.lookup item = none :=
    Finmap.lookup_eq_none.mpr fun h => free.2 (Finmap.mem_keys.mpr h)
  have fits : cnameExclusivity rrsets item := free.1
  refine ⟨⟨put session.db env.name item (some ⟨ttl, ∅⟩),
    session.sent ++ [.rrsetPostSave env.name item true]⟩, ?_, rfl⟩
  simp [createRRset, write, perform, found, fits, free.2, absent, clean]

private theorem saveRecords_of_blank {session : Session} {item : Item} {ttl : Nat}
    (found : value session.db env.name item = some ⟨ttl, ∅⟩) {records : List Text}
    {new : Finset Text} (clean : cleanRecords env item records = .ok new) :
    ∃ session', saveRecords env session item records = .ok session' := by
  have stale : storedRecords env session item = ∅ := by simp [storedRecords, found]
  have nodup := env.contents.nodup new
  simp only [saveRecords, clean, stale, writeAll, Finset.empty_sdiff, visit_empty, List.map_nil,
    List.foldlM_nil, Finset.sdiff_empty, bind, Except.bind, pure, Except.pure, write,
      perform, found,
    Option.bind_some]
  by_cases empty : env.contents.visit new = []
  · simp [empty]
  · simp [empty, nodup]

/-- Data that is complete enough to create an RRset. -/
def Complete (env : Env) (item : Item) (attrs : Attrs) : Prop :=
  ∃ records ttl, attrs.records = some records ∧ attrs.ttl = some (Int.ofNat ttl) ∧
    cleanRRset env.unicode item ttl = true

/-- The records of the data are accepted when they are saved. -/
def Fits (env : Env) (item : Item) (attrs : Attrs) : Prop :=
  ∃ new, cleanRecords env item (attrs.records.getD []) = .ok new

section Create

variable {session : Session} {item : Item} {attrs : Attrs} (complete : Complete env item attrs)
include complete

theorem create_of_blocked (blocked : Blocks (items env session) item) :
    Violation (create env session item attrs) := by
  obtain ⟨records, ttl, isRecords, isTtl, -⟩ := complete
  simp only [create, isRecords, isTtl, violation_bind]
  exact Or.inl (createRRset_of_blocked blocked _)

theorem create_of_unfit (free : ¬ Blocks (items env session) item) (present : HasDomain env session)
    (unfit : ¬ Fits env item attrs) :
    ¬ Violation (create env session item attrs) ∧
      ∀ session', create env session item attrs ≠ .ok session' := by
  obtain ⟨records, ttl, isRecords, isTtl, clean⟩ := complete
  obtain ⟨next, created, -⟩ := createRRset_of_free free present clean
  simp only [create, isRecords, isTtl, created, bind, Except.bind]
  refine ⟨saveRecords_not_violation next item records, fun session' done => unfit ?_⟩
  simp only [saveRecords, bind_eq_ok_iff] at done
  obtain ⟨new, accepted, -⟩ := done
  exact ⟨new, by simpa [isRecords] using accepted⟩

theorem create_of_fits (free : ¬ Blocks (items env session) item) (present : HasDomain env session)
    (fits : Fits env item attrs) :
    ∃ session', create env session item attrs = .ok session' ∧
      items env session' = insert item (items env session) ∧ HasDomain env session' := by
  obtain ⟨records, ttl, isRecords, isTtl, clean⟩ := complete
  obtain ⟨new, accepted⟩ := fits
  rw [isRecords, Option.getD_some] at accepted
  obtain ⟨next, created, stored⟩ := createRRset_of_free free present clean
  have found : value next.db env.name item = some ⟨ttl, ∅⟩ := by
    rw [stored, value_put present]
    simp
  have added : items env next = insert item (items env session) := by
    rw [items, stored, itemsOf_put present]
    simp [items]
  obtain ⟨session', saved⟩ := saveRecords_of_blank found accepted
  have after := (items_of_saveRecords saved).trans added
  have done : create env session item attrs = .ok session' := by
    simp only [create, isRecords, isTtl, bind_eq_ok_iff]
    exact ⟨next, created, saved⟩
  refine ⟨session', done, after, ?_⟩
  have there : item ∈ items env session' := after ▸ Finset.mem_insert_self ..
  obtain ⟨rrset, holds⟩ := Option.isSome_iff_exists.mp (mem_itemsOf.mp there)
  exact lookup_of_value holds

end Create

/-- Creations, one after the other. -/
def createAll (env : Env) (session : Session) (l : List (Item × Attrs)) : Saved :=
  l.foldlM (fun session new => create env session new.1 new.2) session

section CreateAll

variable {l : List (Item × Attrs)}

/-- A constraint is violated when an RRset is blocked by those that were there before, or by
those that the creations before it have added. -/
theorem violation_createAll_iff :
    ∀ {session : Session}, HasDomain env session → (∀ new ∈ l, Complete env new.1 new.2) →
      (Violation (createAll env session l) ↔ ∃ before new after, l = before ++ new :: after ∧
        (∀ earlier ∈ before, Fits env earlier.1 earlier.2) ∧
        Blocks (items env session ∪ (before.map Prod.fst).toFinset) new.1) := by
  induction l with
  | nil =>
    intro session _ _
    simp [createAll, Violation, pure, Except.pure]
  | cons first rest ih =>
    intro session present complete
    have own := complete first (List.mem_cons_self ..)
    have others := fun new member => complete new (List.mem_cons_of_mem first member)
    have split : Violation (createAll env session (first :: rest)) ↔
        Violation (create env session first.1 first.2) ∨
          ∃ next, create env session first.1 first.2 = .ok next ∧
            Violation (createAll env next rest) := by
      simp only [createAll, List.foldlM_cons, violation_bind]
    rw [split]
    by_cases blocked : Blocks (items env session) first.1
    · refine iff_of_true (Or.inl (create_of_blocked own blocked)) ?_
      exact ⟨[], first, rest, rfl, by simp, by simpa using blocked⟩
    · by_cases fits : Fits env first.1 first.2
      · obtain ⟨next, done, added, still⟩ := create_of_fits own blocked present fits
        have fine : ¬ Violation (create env session first.1 first.2) := by simp [done, Violation]
        rw [or_iff_right fine]
        simp only [done, Except.ok.injEq, exists_eq_left', ih still others, added]
        constructor
        · rintro ⟨before, new, after, rfl, earlier, clash⟩
          refine ⟨first :: before, new, after, rfl, ?_, ?_⟩
          · intro other member
            rcases List.mem_cons.mp member with rfl | member
            · exact fits
            · exact earlier other member
          · simpa [Finset.insert_union, Finset.union_insert] using clash
        · rintro ⟨before, new, after, same, earlier, clash⟩
          cases before with
          | nil =>
            obtain ⟨rfl, -⟩ := List.cons.inj same
            exact absurd (by simpa using clash) blocked
          | cons head before =>
            obtain ⟨rfl, rfl⟩ := List.cons.inj same
            refine ⟨before, new, after, rfl, ?_, ?_⟩
            · intro other member
              exact earlier other (List.mem_cons_of_mem _ member)
            · simpa [Finset.insert_union, Finset.union_insert] using clash
      · obtain ⟨fine, stuck⟩ := create_of_unfit own blocked present fits
        refine iff_of_false ?_ ?_
        · rintro (violated | ⟨next, done, -⟩)
          · exact fine violated
          · exact stuck next done
        · rintro ⟨before, new, after, same, earlier, clash⟩
          cases before with
          | nil =>
            obtain ⟨rfl, -⟩ := List.cons.inj same
            exact blocked (by simpa using clash)
          | cons head before =>
            obtain ⟨rfl, -⟩ := List.cons.inj same
            exact fits (earlier first (List.mem_cons_self ..))

theorem exclusive_of_createAll :
    ∀ {session session' : Session}, HasDomain env session →
      (∀ new ∈ l, Complete env new.1 new.2) → Exclusive (items env session) →
      createAll env session l = .ok session' → Exclusive (items env session') := by
  induction l with
  | nil =>
    intro session session' _ _ exclusive done
    simp only [createAll, List.foldlM_nil, pure, Except.pure, Except.ok.injEq] at done
    exact done ▸ exclusive
  | cons first rest ih =>
    intro session session' present complete exclusive done
    have own := complete first (List.mem_cons_self ..)
    simp only [createAll, List.foldlM_cons, bind_eq_ok_iff] at done
    obtain ⟨next, created, later⟩ := done
    have free : ¬ Blocks (items env session) first.1 := by
      intro blocked
      have violated := create_of_blocked own blocked
      simp [created, Violation] at violated
    have fits : Fits env first.1 first.2 := by
      by_contra unfit
      exact (create_of_unfit own free present unfit).2 next created
    obtain ⟨same, done, added, still⟩ := create_of_fits own free present fits
    obtain rfl := Except.ok.inj (created.symm.trans done)
    refine ih still (fun new member => complete new (List.mem_cons_of_mem _ member)) ?_ later
    exact added ▸ exclusive_insert exclusive free

end CreateAll

/-- Updates keep the RRsets of the domain, and break no constraint on them. -/
theorem updates_spec {data : Item → Attrs} {l : List Item} :
    ∀ session : Session,
      ¬ Violation (l.foldlM (fun session item => update env session item (data item)) session) ∧
        ∀ session', l.foldlM (fun session item => update env session item (data item)) session
          = .ok session' → items env session' = items env session := by
  induction l with
  | nil =>
    intro session
    refine ⟨by simp [Violation, pure, Except.pure], fun session' done => ?_⟩
    simp only [List.foldlM_nil, pure, Except.pure, Except.ok.injEq] at done
    rw [done]
  | cons item rest ih =>
    intro session
    obtain ⟨fine, kept⟩ := update_spec env session item (data item)
    simp only [List.foldlM_cons, violation_bind, bind_eq_ok_iff, not_or, not_exists, not_and]
    refine ⟨⟨fine, fun next _ => (ih next).1⟩, ?_⟩
    rintro session' ⟨next, first, later⟩
    rw [(ih next).2 session' later, kept next first]

section ListUpdate

variable (queryset : Finset Item) (result : List Attrs)

def keys : Finset Item := (result.map keyOf).toFinset

def emptied : Finset Item := ((result.filter isEmpty).map keyOf).toFinset

/-- The known RRsets that an update deletes. -/
def deleted : Finset Item := queryset ∩ keys result ∩ emptied result

/-- The unknown RRsets that an update creates. -/
def created : Finset Item :=
  (keys result \ (queryset ∩ keys result)) ∩ (keys result \ emptied result)

def dataOf (item : Item) : Attrs := (dataFor result item).getD ⟨none, none, none, none⟩

/-- An update deletes first, and its outcome is decided by the creations after that. -/
theorem listUpdate_spec {session : Session} (present : HasDomain env session)
    (known : queryset ⊆ items env session) :
    ∃ middle, HasDomain env middle ∧
      items env middle = items env session \ deleted queryset result ∧
      (Violation (listUpdate env session queryset result) ↔ Violation (createAll env middle
        ((env.items.visit (created queryset result)).map fun item => (item, dataOf result item)))) ∧
      ∀ session', listUpdate env session queryset result = .ok session' → ∃ next,
        createAll env middle
          ((env.items.visit (created queryset result)).map fun item => (item, dataOf result item))
            = .ok next ∧ items env session' = items env next := by
  obtain ⟨middle, done, removed, still⟩ := deletes_of_subset
    (l := env.items.visit (deleted queryset result)) present (env.items.nodup _)
    fun item member => by
      have inDeleted := (env.items.mem_visit _ _).mp member
      simp only [deleted, Finset.mem_inter] at inDeleted
      exact known inDeleted.1.1
  have visited : (env.items.visit (deleted queryset result)).toFinset
    = deleted queryset result := by
    ext item
    simp
  rw [visited] at removed
  have unfolded : listUpdate env session queryset result
      = createAll env middle
          ((env.items.visit (created queryset result)).map fun item => (item, dataOf result item))
        >>= fun next => (env.items.visit (queryset ∩ keys result ∩
          (keys result \ emptied result))).foldlM
            (fun session item => update env session item (dataOf result item)) next := by
    simp only [createAll, List.foldlM_map]
    simp only [listUpdate, bind, Except.bind]
    rw [show (env.items.visit (queryset ∩ (result.map keyOf).toFinset ∩
      ((result.filter isEmpty).map keyOf).toFinset)).foldlM (delete env) session
        = .ok middle from done]
    rfl
  refine ⟨middle, still, removed, ?_, ?_⟩
  · rw [unfolded, violation_bind]
    refine or_iff_left ?_
    rintro ⟨next, -, violated⟩
    exact (updates_spec next).1 violated
  · intro session' saved
    rw [unfolded, bind_eq_ok_iff] at saved
    obtain ⟨next, creations, updates⟩ := saved
    exact ⟨next, creations, (updates_spec next).2 session' updates⟩

end ListUpdate

end DesecStack.Records.Writes
