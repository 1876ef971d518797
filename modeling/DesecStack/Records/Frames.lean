/- module: DesecStack/Records/Frames
   layer: lemmas
   digest: Saving RRsets changes those in the data, and no others. -/

import DesecStack.Records.Writes

set_option autoImplicit false
set_option relaxedAutoImplicit false

namespace DesecStack.Records.Frames

open Library.PyText
open Library.Runs (bind_eq_ok_iff foldlM_related)
open Changes.Models
open Serializer (Attrs)
open Save

/-- Only RRsets of one domain have changed, and only allowed ones. -/
def Confined (name : Text) (allowed : Item → Prop) (before after : Database) : Prop :=
  ∀ d i, value after d i ≠ value before d i → d = name ∧ allowed i

section Confined

variable {name : Text} {allowed : Item → Prop} {first second third : Database}

theorem Confined.refl (name : Text) (allowed : Item → Prop) (db : Database) :
    Confined name allowed db db :=
  fun _ _ changed => absurd rfl changed

private theorem Confined.trans (one : Confined name allowed first second)
    (two : Confined name allowed second third) : Confined name allowed first third := by
  intro d i changed
  by_cases later : value third d i = value second d i
  · exact one d i fun same => changed (later.trans same)
  · exact two d i later

theorem Confined.mono {wider : Item → Prop} (one : Confined name allowed first second)
    (allows : ∀ item, allowed item → wider item) : Confined name wider first second := by
  intro d i changed
  obtain ⟨same, member⟩ := one d i changed
  exact ⟨same, allows i member⟩

/-- An RRset that is not allowed to change has its value. -/
theorem Confined.value_eq (one : Confined name allowed first second) {item : Item}
    (outside : ¬ allowed item) : value second name item = value first name item := by
  by_contra changed
  exact outside (one name item changed).2

private theorem confined_put {item : Item} (allows : allowed item) (db : Database)
    (rrset : Option RRset) : Confined name allowed db (put db name item rrset) := by
  intro d i changed
  cases present : db.lookup name with
  | none => simp [put, present] at changed
  | some rrsets =>
    rw [value_put (by simp [present])] at changed
    by_cases here : d = name ∧ i = item
    · exact ⟨here.1, here.2 ▸ allows⟩
    · simp [here] at changed

end Confined

/-- The RRset that a write to one domain is about. -/
inductive About (name : Text) (item : Item) : Operation → Prop where
  | createRRset (ttl : Nat) : About name item (.createRRset name item ttl)
  | saveRRset (ttl : Nat) : About name item (.saveRRset name item ttl)
  | deleteRRset : About name item (.deleteRRset name item)
  | deleteRR (content : Text) : About name item (.deleteRR name item content)
  | bulkCreateRRs (contents : List Text) : About name item (.bulkCreateRRs name item contents)

private theorem confined_of_perform {unicode : Unicode} {cascade : Cascade} {name : Text}
    {allowed : Item → Prop} {item : Item} (allows : allowed item) {db db' : Database}
    {operation : Operation} {sent : List Signal} (about : About name item operation)
    (performed : perform unicode cascade db operation = some (db', sent)) :
    Confined name allowed db db' := by
  cases about with
  | createRRset ttl =>
    simp only [perform, Option.bind_eq_some_iff, Option.ite_none_right_eq_some, Option.some.injEq,
      Prod.mk.injEq] at performed
    obtain ⟨rrsets, -, -, same, -⟩ := performed
    exact same ▸ confined_put allows _ _
  | saveRRset ttl =>
    simp only [perform, Option.bind_eq_some_iff, Option.ite_none_right_eq_some, Option.some.injEq,
      Prod.mk.injEq] at performed
    obtain ⟨old, -, -, same, -⟩ := performed
    exact same ▸ confined_put allows _ _
  | deleteRRset =>
    simp only [perform, Option.map_eq_some_iff, Prod.mk.injEq] at performed
    obtain ⟨old, -, same, -⟩ := performed
    exact same ▸ confined_put allows _ _
  | deleteRR content =>
    simp only [perform, Option.bind_eq_some_iff, Option.ite_none_right_eq_some, Option.some.injEq,
      Prod.mk.injEq] at performed
    obtain ⟨old, -, -, same, -⟩ := performed
    exact same ▸ confined_put allows _ _
  | bulkCreateRRs contents =>
    simp only [perform, Option.bind_eq_some_iff] at performed
    obtain ⟨old, -, performed⟩ := performed
    split at performed
    · obtain ⟨same, -⟩ := Prod.mk.inj (Option.some.inj performed)
      exact same ▸ Confined.refl _ _ _
    · simp only [Option.ite_none_right_eq_some, Option.some.injEq, Prod.mk.injEq] at performed
      obtain ⟨-, same, -⟩ := performed
      exact same ▸ confined_put allows _ _

theorem confined_of_performAll {unicode : Unicode} {cascade : Cascade} {name : Text}
    {allowed : Item → Prop} {item : Item} (allows : allowed item) {operations : List Operation} :
    ∀ {db db' : Database} {sent : List Signal},
      (∀ operation ∈ operations, About name item operation) →
      performAll unicode cascade operations db = some (db', sent) →
      Confined name allowed db db' := by
  induction operations with
  | nil =>
    intro db db' sent _ done
    simp only [performAll, Option.some.injEq, Prod.mk.injEq] at done
    exact done.1 ▸ Confined.refl _ _ _
  | cons operation rest ih =>
    intro db db' sent about done
    simp only [performAll, Option.bind_eq_bind, Option.bind_eq_some_iff, Option.pure_def,
      Option.some.injEq, Prod.exists, Prod.mk.injEq] at done
    obtain ⟨next, now, first, last, later, others, rfl, -⟩ := done
    have head := confined_of_perform allows (about operation (List.mem_cons_self ..)) first
    exact head.trans (ih (fun o member => about o (List.mem_cons_of_mem _ member)) others)

theorem confined_of_foldlM {α : Type} {env : Env} {allowed : Item → Prop}
    {step : Session → α → Saved} {l : List α}
    (each : ∀ a ∈ l, ∀ session session', step session a = .ok session' →
      Confined env.name allowed session.db session'.db) :
    ∀ {session session' : Session}, l.foldlM step session = .ok session' →
      Confined env.name allowed session.db session'.db :=
  foldlM_related (R := fun before after : Session => Confined env.name allowed before.db after.db)
    (fun _ => Confined.refl _ _ _) Confined.trans each

section Saves

variable {env : Env} {allowed : Item → Prop} {item : Item} (allows : allowed item)
include allows

private theorem confined_of_write {session session' : Session} {operation : Operation}
    (about : About env.name item operation) (done : write env session operation = .ok session') :
    Confined env.name allowed session.db session'.db := by
  obtain ⟨sent, performed⟩ := Writes.write_ok done
  exact confined_of_perform allows about performed

private theorem confined_of_writeAll {session session' : Session} {operations : List Operation}
    (about : ∀ operation ∈ operations, About env.name item operation)
    (done : writeAll env session operations = .ok session') :
    Confined env.name allowed session.db session'.db :=
  confined_of_foldlM (fun operation member _ _ step =>
    confined_of_write allows (about operation member) step) done

private theorem confined_of_saveRecords {session session' : Session} {records : List Text}
    (done : saveRecords env session item records = .ok session') :
    Confined env.name allowed session.db session'.db := by
  simp only [saveRecords, bind_eq_ok_iff] at done
  obtain ⟨new, -, next, deleted, created⟩ := done
  refine Confined.trans (confined_of_writeAll allows ?_ deleted)
    (confined_of_write allows (.bulkCreateRRs _) created)
  intro operation member
  obtain ⟨content, -, rfl⟩ := List.mem_map.mp member
  exact .deleteRR content

theorem confined_of_create {session session' : Session} {attrs : Attrs}
    (done : create env session item attrs = .ok session') :
    Confined env.name allowed session.db session'.db := by
  unfold create at done
  split at done
  · next records ttl _ _ =>
    simp only [bind_eq_ok_iff] at done
    obtain ⟨next, created, saved⟩ := done
    refine Confined.trans ?_ (confined_of_saveRecords allows saved)
    unfold createRRset at created
    dsimp only at created
    split at created
    · exact absurd created (by simp)
    · split at created
      · exact absurd created (by simp)
      · split at created
        · exact absurd created (by simp)
        · exact confined_of_write allows (.createRRset _) created
  · exact absurd done (by simp)

private theorem confined_of_saveTtl {session session' : Session} {ttl : Option Int}
    (done : saveTtl env session item ttl = .ok session') :
    Confined env.name allowed session.db session'.db := by
  unfold saveTtl at done
  split at done
  · exact Except.ok.inj done ▸ Confined.refl _ _ _
  · split at done
    · exact Except.ok.inj done ▸ Confined.refl _ _ _
    · split at done
      · exact absurd done (by simp)
      · exact confined_of_write allows (.saveRRset _) done

theorem confined_of_update {session session' : Session} {attrs : Attrs}
    (done : update env session item attrs = .ok session') :
    Confined env.name allowed session.db session'.db := by
  simp only [update, bind_eq_ok_iff] at done
  obtain ⟨next, records, ttl⟩ := done
  refine Confined.trans ?_ (confined_of_saveTtl allows ttl)
  split at records
  · exact confined_of_saveRecords allows records
  · exact Except.ok.inj records ▸ Confined.refl _ _ _

theorem confined_of_delete {session session' : Session}
    (done : delete env session item = .ok session') :
    Confined env.name allowed session.db session'.db :=
  confined_of_write allows .deleteRRset done

end Saves

section Lists

variable {env : Env} {session session' : Session} {result : List Attrs} {allowed : Item → Prop}
  (allows : ∀ attrs ∈ result, allowed (keyOf attrs))
include allows

theorem confined_of_listCreate (done : listCreate env session result = .ok session') :
    Confined env.name allowed session.db session'.db :=
  confined_of_foldlM (fun attrs member _ _ step => confined_of_create (allows attrs member) step)
    done

theorem confined_of_listUpdate {queryset : Finset Item}
    (done : listUpdate env session queryset result = .ok session') :
    Confined env.name allowed session.db session'.db := by
  have inKeys {item : Item} (member : item ∈ (result.map keyOf).toFinset) : allowed item := by
    obtain ⟨attrs, there, rfl⟩ := List.mem_map.mp (List.mem_toFinset.mp member)
    exact allows attrs there
  simp only [listUpdate, bind_eq_ok_iff] at done
  obtain ⟨deleted, deletes, created, creates, updates⟩ := done
  refine (confined_of_foldlM (fun item member _ _ step => ?_) deletes).trans
    ((confined_of_foldlM (fun item member _ _ step => ?_) creates).trans
      (confined_of_foldlM (fun item member _ _ step => ?_) updates))
  · rw [env.items.mem_visit] at member
    exact confined_of_delete (inKeys (by simp_all)) step
  · rw [env.items.mem_visit] at member
    exact confined_of_create (inKeys (by simp_all)) step
  · rw [env.items.mem_visit] at member
    exact confined_of_update (inKeys (by simp_all)) step

end Lists

end DesecStack.Records.Frames
