/- module: DesecStack/Records/Values
   layer: lemmas
   digest: What saving validated data makes of each RRset. -/

import DesecStack.Records.Frames

set_option autoImplicit false
set_option relaxedAutoImplicit false

namespace DesecStack.Records.Values

open Library.PyText
open Library.Runs (bind_eq_ok_iff)
open Changes.Models
open Serializer (Attrs)
open Save
open Frames
open Writes (write_ok keys emptied dataOf deleted created)

variable {env : Env} {session session' : Session} {item : Item} {attrs : Attrs}

/-- What is there after the creation of an RRset from data. -/
def Created (env : Env) (item : Item) (attrs : Attrs) (after : Option RRset) : Prop :=
  ∃ records ttl new, attrs.records = some records ∧ attrs.ttl = some ttl ∧ 0 ≤ ttl ∧
    cleanRecords env item records = .ok new ∧ after = some ⟨ttl.toNat, new⟩

/-- A TTL that is absent or zero leaves the old one in place. -/
def ttlAfter (old : Nat) : Option Int → Nat
  | none => old
  | some ttl => if ttl = 0 then old else ttl.toNat

/-- What is there after the update of an RRset with data. -/
def Updated (env : Env) (item : Item) (attrs : Attrs) (old : RRset) (after : Option RRset) :
    Prop :=
  ∃ new, (∀ records, attrs.records = some records → cleanRecords env item records = .ok new) ∧
    (attrs.records = none → new = old.records) ∧ after = some ⟨ttlAfter old.ttl attrs.ttl, new⟩

section Own

variable {old : RRset}

private theorem value_of_deleteRR {content : Text}
    (found : value session.db env.name item = some old)
    (done : write env session (.deleteRR env.name item content) = .ok session') :
    value session'.db env.name item = some { old with records := old.records.erase content } := by
  obtain ⟨sent, performed⟩ := write_ok done
  simp only [perform, found, Option.bind_some, Option.ite_none_right_eq_some, Option.some.injEq,
    Prod.mk.injEq] at performed
  rw [← performed.2.1, value_put (lookup_of_value found)]
  simp

private theorem value_of_deleteRRs (contents : List Text) :
    ∀ {session session' : Session} {old : RRset}, value session.db env.name item = some old →
      writeAll env session (contents.map (.deleteRR env.name item)) = .ok session' →
      value session'.db env.name item
        = some { old with records := old.records \ contents.toFinset } := by
  induction contents with
  | nil =>
    intro session session' old found done
    simp only [writeAll, List.map_nil, List.foldlM_nil, pure, Except.pure, Except.ok.injEq] at done
    simp [← done, found]
  | cons content rest ih =>
    intro session session' old found done
    simp only [writeAll, List.map_cons, List.foldlM_cons, bind_eq_ok_iff] at done
    obtain ⟨next, first, later⟩ := done
    rw [ih (value_of_deleteRR found first) later, List.toFinset_cons]
    congr 2
    ext other
    simp only [Finset.mem_sdiff, Finset.mem_erase, Finset.mem_insert]
    tauto

private theorem value_of_bulkCreateRRs {contents : List Text}
    (found : value session.db env.name item = some old)
    (done : write env session (.bulkCreateRRs env.name item contents) = .ok session') :
    value session'.db env.name item
      = some { old with records := old.records ∪ contents.toFinset } := by
  obtain ⟨sent, performed⟩ := write_ok done
  simp only [perform, found, Option.bind_some] at performed
  split at performed
  · next none =>
    obtain ⟨same, -⟩ := Prod.mk.inj (Option.some.inj performed)
    simp [← same, none, found]
  · simp only [Option.ite_none_right_eq_some, Option.some.injEq, Prod.mk.injEq] at performed
    rw [← performed.2.1, value_put (lookup_of_value found)]
    simp

theorem value_of_saveRecords {records : List Text}
    (found : value session.db env.name item = some old)
    (done : saveRecords env session item records = .ok session') :
    ∃ new, cleanRecords env item records = .ok new ∧
      value session'.db env.name item = some { old with records := new } := by
  simp only [saveRecords, bind_eq_ok_iff] at done
  obtain ⟨new, clean, next, deleted, created⟩ := done
  have stored : storedRecords env session item = old.records := by simp [storedRecords, found]
  rw [stored] at deleted
  have kept := value_of_deleteRRs _ found deleted
  have left : storedRecords env next item
      = old.records \ (env.contents.visit (old.records \ new)).toFinset := by
    simp [storedRecords, kept]
  refine ⟨new, clean, ?_⟩
  rw [value_of_bulkCreateRRs kept created, left]
  congr 2
  ext content
  simp only [Finset.mem_union, Finset.mem_sdiff, List.mem_toFinset, env.contents.mem_visit]
  tauto

private theorem deleteRRs_of_subset (contents : List Text) :
    ∀ {session : Session} {old : RRset}, value session.db env.name item = some old →
      contents.Nodup → (∀ content ∈ contents, content ∈ old.records) →
      ∃ session', writeAll env session (contents.map (.deleteRR env.name item)) = .ok session' := by
  induction contents with
  | nil =>
    intro session _ _ _ _
    exact ⟨session, rfl⟩
  | cons content rest ih =>
    intro session old found nodup inside
    obtain ⟨fresh, nodup⟩ := List.nodup_cons.mp nodup
    have first : ∃ next, write env session (.deleteRR env.name item content) = .ok next := by
      simp [write, perform, found, inside content (List.mem_cons_self ..)]
    obtain ⟨next, first⟩ := first
    obtain ⟨last, later⟩ := ih (value_of_deleteRR found first) nodup fun other member =>
      Finset.mem_erase.mpr ⟨fun same => fresh (same ▸ member),
        inside other (List.mem_cons_of_mem _ member)⟩
    refine ⟨last, ?_⟩
    simp only [writeAll, List.map_cons, List.foldlM_cons, bind_eq_ok_iff]
    exact ⟨next, first, later⟩

private theorem saveRecords_of_clean {records : List Text} {new : Finset Text}
    (found : value session.db env.name item = some old)
    (clean : cleanRecords env item records = .ok new) :
    ∃ session', saveRecords env session item records = .ok session' := by
  have stored : storedRecords env session item = old.records := by simp [storedRecords, found]
  obtain ⟨next, deleted⟩ := deleteRRs_of_subset (env.contents.visit (old.records \ new)) found
    (env.contents.nodup _) fun content member =>
      (Finset.mem_sdiff.mp ((env.contents.mem_visit _ _).mp member)).1
  have kept := value_of_deleteRRs _ found deleted
  have left : storedRecords env next item
      = old.records \ (env.contents.visit (old.records \ new)).toFinset := by
    simp [storedRecords, kept]
  have added : ∃ last, write env next (.bulkCreateRRs env.name item
      (env.contents.visit (new \ storedRecords env next item))) = .ok last := by
    have apart : Disjoint (env.contents.visit (new \ storedRecords env next item)).toFinset
        (old.records \ (env.contents.visit (old.records \ new)).toFinset) := by
      rw [← left, Finset.disjoint_left]
      intro content member
      rw [List.mem_toFinset, env.contents.mem_visit] at member
      exact (Finset.mem_sdiff.mp member).2
    simp only [write, perform, kept, Option.bind_some]
    by_cases none : env.contents.visit (new \ storedRecords env next item) = []
    · simp [none]
    · simp only [none, if_false, env.contents.nodup, apart, and_self, if_true]
      exact ⟨_, rfl⟩
  obtain ⟨last, added⟩ := added
  refine ⟨last, ?_⟩
  simp only [saveRecords, bind_eq_ok_iff, stored]
  exact ⟨new, clean, next, deleted, added⟩

private theorem saveTtl_of_clean {ttl : Option Int}
    (found : value session.db env.name item = some old)
    (fits : ∀ n, ttl = some n → 0 ≤ n ∧ cleanRRset env.unicode item n.toNat = true) :
    ∃ session', saveTtl env session item ttl = .ok session' := by
  cases ttl with
  | none => exact ⟨session, rfl⟩
  | some n =>
    obtain ⟨nonnegative, clean⟩ := fits n rfl
    simp only [saveTtl]
    split
    · exact ⟨session, rfl⟩
    · rw [if_neg (by omega)]
      simp [write, perform, found, clean]

theorem update_of_clean (found : value session.db env.name item = some old)
    (clean : ∀ records, attrs.records = some records →
      ∃ new, cleanRecords env item records = .ok new)
    (fits : ∀ n, attrs.ttl = some n → 0 ≤ n ∧ cleanRRset env.unicode item n.toNat = true) :
    ∃ session', update env session item attrs = .ok session' := by
  cases isRecords : attrs.records with
  | none =>
    obtain ⟨last, saved⟩ := saveTtl_of_clean found fits
    refine ⟨last, ?_⟩
    simp only [update, isRecords, bind_eq_ok_iff]
    exact ⟨session, rfl, saved⟩
  | some records =>
    obtain ⟨new, isClean⟩ := clean records isRecords
    obtain ⟨next, replaced⟩ := saveRecords_of_clean found isClean
    obtain ⟨_, -, between⟩ := value_of_saveRecords found replaced
    obtain ⟨last, saved⟩ := saveTtl_of_clean between fits
    refine ⟨last, ?_⟩
    simp only [update, isRecords, bind_eq_ok_iff]
    exact ⟨next, replaced, saved⟩

theorem value_of_createRRset {ttl : Int}
    (done : createRRset env session item ttl = .ok session') :
    0 ≤ ttl ∧ value session.db env.name item = none ∧
      value session'.db env.name item = some ⟨ttl.toNat, ∅⟩ := by
  unfold createRRset at done
  dsimp only at done
  split at done
  · exact absurd done (by simp)
  · split at done
    · exact absurd done (by simp)
    · split at done
      · exact absurd done (by simp)
      · next nonnegative =>
        obtain ⟨sent, performed⟩ := write_ok done
        simp only [perform, Option.bind_eq_some_iff, Option.ite_none_right_eq_some,
          Option.some.injEq, Prod.mk.injEq] at performed
        obtain ⟨rrsets, found, ⟨absent, -⟩, same, -⟩ := performed
        have present : (session.db.lookup env.name).isSome := by simp [found]
        refine ⟨by omega, by simp [value, found, absent], ?_⟩
        rw [← same, value_put present]
        simp

theorem created_of_create (done : create env session item attrs = .ok session') :
    value session.db env.name item = none ∧
      Created env item attrs (value session'.db env.name item) := by
  unfold create at done
  split at done
  · next records ttl isRecords isTtl =>
    simp only [bind_eq_ok_iff] at done
    obtain ⟨next, added, saved⟩ := done
    obtain ⟨nonnegative, absent, blank⟩ := value_of_createRRset added
    obtain ⟨new, clean, after⟩ := value_of_saveRecords blank saved
    exact ⟨absent, records, ttl, new, isRecords, isTtl, nonnegative, clean, after⟩
  · exact absurd done (by simp)

private theorem value_of_saveTtl {ttl : Option Int}
    (found : value session.db env.name item = some old)
    (done : saveTtl env session item ttl = .ok session') :
    value session'.db env.name item = some { old with ttl := ttlAfter old.ttl ttl } := by
  unfold saveTtl at done
  split at done
  · rw [← Except.ok.inj done, found]
    rfl
  · next ttl =>
    split at done
    · next same =>
      rw [← Except.ok.inj done, found]
      have equal : ttlAfter old.ttl (some ttl) = old.ttl := by
        simp only [found, Option.any_some, decide_eq_true_eq] at same
        simp only [ttlAfter]
        split <;> omega
      rw [equal]
    · next differs =>
      split at done
      · exact absurd done (by simp)
      · obtain ⟨sent, performed⟩ := write_ok done
        simp only [perform, found, Option.bind_some, Option.ite_none_right_eq_some,
          Option.some.injEq, Prod.mk.injEq] at performed
        have nonzero : ttl ≠ 0 := fun zero => differs (Or.inl zero)
        rw [← performed.2.1, value_put (lookup_of_value found)]
        simp [ttlAfter, nonzero]

theorem updated_of_update (found : value session.db env.name item = some old)
    (done : update env session item attrs = .ok session') :
    Updated env item attrs old (value session'.db env.name item) := by
  simp only [update, bind_eq_ok_iff] at done
  obtain ⟨next, recordsDone, ttlDone⟩ := done
  cases isRecords : attrs.records with
  | none =>
    simp only [isRecords, Except.ok.injEq] at recordsDone
    rw [value_of_saveTtl (recordsDone ▸ found) ttlDone]
    exact ⟨old.records, by simp [isRecords], fun _ => rfl, rfl⟩
  | some records =>
    simp only [isRecords] at recordsDone
    obtain ⟨new, clean, between⟩ := value_of_saveRecords found recordsDone
    rw [value_of_saveTtl between ttlDone]
    refine ⟨new, fun other given => ?_, by simp [isRecords], rfl⟩
    obtain rfl := Option.some.inj (isRecords.symm.trans given)
    exact clean

theorem value_of_delete (done : delete env session item = .ok session') :
    (∃ old, value session.db env.name item = some old) ∧
      value session'.db env.name item = none := by
  obtain ⟨sent, performed⟩ := write_ok done
  simp only [perform, Option.map_eq_some_iff, Prod.mk.injEq] at performed
  obtain ⟨old, found, same, -⟩ := performed
  refine ⟨⟨old, found⟩, ?_⟩
  rw [← same, value_put (lookup_of_value found)]
  simp

end Own

private theorem own_of_foldlM {α : Type} {step : Session → α → Saved} (key : α → Item)
    {R : α → Option RRset → Option RRset → Prop} {l : List α}
    (own : ∀ a ∈ l, ∀ session session', step session a = .ok session' →
      R a (value session.db env.name (key a)) (value session'.db env.name (key a)))
    (frame : ∀ a ∈ l, ∀ session session', step session a = .ok session' →
      Confined env.name (· = key a) session.db session'.db) :
    ∀ {session session' : Session}, (l.map key).Nodup → l.foldlM step session = .ok session' →
      ∀ a ∈ l, R a (value session.db env.name (key a)) (value session'.db env.name (key a)) := by
  induction l with
  | nil => simp
  | cons first rest ih =>
    intro session session' nodup done a member
    obtain ⟨fresh, nodup⟩ := List.nodup_cons.mp nodup
    simp only [List.foldlM_cons, bind_eq_ok_iff] at done
    obtain ⟨next, head, later⟩ := done
    have frameRest := fun b there => frame b (List.mem_cons_of_mem first there)
    have others := ih (fun b there => own b (List.mem_cons_of_mem first there)) frameRest
      nodup later
    rcases List.mem_cons.mp member with rfl | member
    · have kept : Confined env.name (· ∈ rest.map key) next.db session'.db :=
        confined_of_foldlM (fun b there s s' step =>
          (frameRest b there s s' step).mono fun i same => by
            rw [same]
            exact List.mem_map_of_mem there) later
      have same := kept.value_eq fresh
      rw [same]
      exact own a (List.mem_cons_self ..) session next head
    · have other : key a ≠ key first := fun same => fresh (same ▸ List.mem_map_of_mem member)
      have headFrame : Confined env.name (· = key first) session.db next.db :=
        frame first (List.mem_cons_self ..) session next head
      rw [← headFrame.value_eq other]
      exact others a member

section Lists

variable {validated : List Attrs}

/-- A list that could be created had new and distinct keys. -/
theorem fresh_of_listCreate :
    ∀ {session session' : Session}, listCreate env session validated = .ok session' →
      (validated.map keyOf).Nodup ∧
        ∀ attrs ∈ validated, value session.db env.name (keyOf attrs) = none := by
  induction validated with
  | nil => simp
  | cons first rest ih =>
    intro session session' done
    simp only [listCreate, List.foldlM_cons, bind_eq_ok_iff] at done
    obtain ⟨next, head, later⟩ := done
    obtain ⟨nodup, absent⟩ := ih later
    obtain ⟨free, created⟩ := created_of_create head
    obtain ⟨records, ttl, new, -, -, -, -, there⟩ := created
    have fresh : keyOf first ∉ rest.map keyOf := by
      intro again
      obtain ⟨attrs, member, same⟩ := List.mem_map.mp again
      have gone := absent attrs member
      rw [same, there] at gone
      exact absurd gone (by simp)
    refine ⟨List.nodup_cons.mpr ⟨fresh, nodup⟩, fun attrs member => ?_⟩
    rcases List.mem_cons.mp member with rfl | member
    · exact free
    · have other : keyOf attrs ≠ keyOf first := fun same =>
        fresh (same ▸ List.mem_map_of_mem member)
      have frame : Confined env.name (· = keyOf first) session.db next.db :=
        confined_of_create (by rfl) head
      rw [← frame.value_eq other]
      exact absent attrs member

theorem created_of_listCreate (done : listCreate env session validated = .ok session') :
    ∀ attrs ∈ validated, Created env (keyOf attrs) attrs
      (value session'.db env.name (keyOf attrs)) :=
  own_of_foldlM keyOf (R := fun attrs _ after => Created env (keyOf attrs) attrs after)
    (fun _ _ _ _ step => (created_of_create step).2)
    (fun _ _ _ _ step => confined_of_create (by rfl) step) (fresh_of_listCreate done).1 done

/-- The data for an RRset is that of one of the items. -/
theorem data_of_keys {item : Item} (member : item ∈ keys validated) :
    ∃ attrs ∈ validated, keyOf attrs = item ∧ dataOf validated item = attrs := by
  obtain ⟨first, there, isKey⟩ := List.mem_map.mp (List.mem_toFinset.mp member)
  have nonempty : (validated.filter fun attrs => keyOf attrs = item) ≠ [] :=
    List.ne_nil_of_mem (List.mem_filter.mpr ⟨there, by simpa using isKey⟩)
  obtain ⟨inList, same⟩ := List.mem_filter.mp (List.getLast_mem nonempty)
  refine ⟨_, inList, by simpa using same, ?_⟩
  rw [dataOf, dataFor, List.getLast?_eq_some_getLast nonempty]
  rfl

/-- What a list update makes of an RRset in the data, by whether it is known and emptied. -/
structure Listed (env : Env) (queryset : Finset Item) (validated : List Attrs) (item : Item)
    (before after : Option RRset) : Prop where
  deleted (known : item ∈ queryset) (empty : item ∈ emptied validated) : after = none
  updated (known : item ∈ queryset) (nonempty : item ∉ emptied validated) (old : RRset)
    (found : before = some old) : Updated env item (dataOf validated item) old after
  skipped (unknown : item ∉ queryset) (empty : item ∈ emptied validated) : after = before
  created (unknown : item ∉ queryset) (nonempty : item ∉ emptied validated) :
    before = none ∧ Created env item (dataOf validated item) after

/-- The known RRsets that an update writes to. -/
def updatedItems (queryset : Finset Item) (validated : List Attrs) : Finset Item :=
  queryset ∩ keys validated ∩ (keys validated \ emptied validated)

theorem listed_of_listUpdate {queryset : Finset Item}
    (done : listUpdate env session queryset validated = .ok session') {item : Item}
    (member : item ∈ keys validated) :
    Listed env queryset validated item (value session.db env.name item)
      (value session'.db env.name item) := by
  simp only [listUpdate, bind_eq_ok_iff] at done
  obtain ⟨middle, deletes, next, creates, updates⟩ := done
  change (env.items.visit (deleted queryset validated)).foldlM (delete env) session
    = .ok middle at deletes
  change (env.items.visit (created queryset validated)).foldlM
    (fun session item => create env session item (dataOf validated item)) middle
      = .ok next at creates
  change (env.items.visit (updatedItems queryset validated)).foldlM
    (fun session item => update env session item (dataOf validated item)) next
      = .ok session' at updates
  have nodup (s : Finset Item) : ((env.items.visit s).map id).Nodup := by
    simpa using env.items.nodup s
  -- each loop settles its own RRsets, and keeps those of the others
  have deletedOwn := own_of_foldlM id (R := fun _ _ after => after = none)
    (fun _ _ _ _ step => (value_of_delete step).2)
    (fun _ _ _ _ step => confined_of_delete (by rfl) step) (nodup _) deletes
  have createdOwn := own_of_foldlM id
    (R := fun i before after => before = none ∧ Created env i (dataOf validated i) after)
    (fun _ _ _ _ step => created_of_create step)
    (fun _ _ _ _ step => confined_of_create (by rfl) step) (nodup _) creates
  have updatedOwn := own_of_foldlM id
    (R := fun i before after => ∀ old, before = some old →
      Updated env i (dataOf validated i) old after)
    (fun _ _ _ _ step _ found => updated_of_update found step)
    (fun _ _ _ _ step => confined_of_update (by rfl) step) (nodup _) updates
  have deletedFrame : Confined env.name (· ∈ deleted queryset validated) session.db middle.db :=
    confined_of_foldlM (fun i there _ _ step =>
      confined_of_delete ((env.items.mem_visit _ _).mp there) step) deletes
  have createdFrame : Confined env.name (· ∈ created queryset validated) middle.db next.db :=
    confined_of_foldlM (fun i there _ _ step =>
      confined_of_create ((env.items.mem_visit _ _).mp there) step) creates
  have updatedFrame : Confined env.name (· ∈ updatedItems queryset validated) next.db session'.db :=
    confined_of_foldlM (fun i there _ _ step =>
      confined_of_update ((env.items.mem_visit _ _).mp there) step) updates
  simp only [env.items.mem_visit, id] at deletedOwn createdOwn updatedOwn
  refine ⟨fun known empty => ?_, fun known nonempty old found => ?_, fun unknown empty => ?_,
    fun unknown nonempty => ?_⟩
  · rw [updatedFrame.value_eq (by simp [updatedItems, empty]),
      createdFrame.value_eq (by simp [created, known])]
    exact deletedOwn item (by simp [deleted, known, member, empty])
  · refine updatedOwn item (by simp [updatedItems, known, member, nonempty]) old ?_
    rw [createdFrame.value_eq (by simp [created, known]),
      deletedFrame.value_eq (by simp [deleted, nonempty]), found]
  · rw [updatedFrame.value_eq (by simp [updatedItems, empty]),
      createdFrame.value_eq (by simp [created, empty]),
      deletedFrame.value_eq (by simp [deleted, unknown])]
  · rw [updatedFrame.value_eq (by simp [updatedItems, unknown]),
      ← deletedFrame.value_eq (by simp [deleted, unknown])]
    exact createdOwn item (by simp [created, unknown, member, nonempty])

end Lists

end DesecStack.Records.Values
