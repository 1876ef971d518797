/- module: DesecStack/Records/Traces
   layer: lemmas
   digest: The writes that saving a list makes, and the signals that they send. -/

import DesecStack.Changes.History
import DesecStack.Records.BulkExact
import DesecStack.Records.Values

set_option autoImplicit false
set_option relaxedAutoImplicit false

namespace DesecStack.Records.Traces

open Library.PyText
open Library.Runs (bind_eq_ok_iff)
open Changes.Models
open Changes.History
open Serializer (Attrs)
open Save
open Frames
open Values
open BulkExact (Method save)

private theorem performAll_append {unicode : Unicode} {cascade : Cascade} (first : List Operation) :
    ∀ {later : List Operation} {db middle last : Database} {sent others : List Signal},
      performAll unicode cascade first db = some (middle, sent) →
      performAll unicode cascade later middle = some (last, others) →
      performAll unicode cascade (first ++ later) db = some (last, sent ++ others) := by
  induction first with
  | nil =>
    intro later db middle last sent others done rest
    simp only [performAll, Option.some.injEq, Prod.mk.injEq] at done
    obtain ⟨rfl, rfl⟩ := done
    exact rest
  | cons operation tail ih =>
    intro later db middle last sent others done rest
    simp only [performAll, Option.bind_eq_bind, Option.bind_eq_some_iff, Option.pure_def,
      Option.some.injEq, Prod.exists, Prod.mk.injEq] at done
    obtain ⟨next, own, head, last', tailSent, followed, rfl, rfl⟩ := done
    have joined := ih followed rest
    simp [performAll, head, joined]

/-- A session that some allowed writes lead to, with the signals that they send. -/
def Traced (env : Env) (allowed : Operation → Prop) (session session' : Session) : Prop :=
  ∃ operations sent, (∀ operation ∈ operations, allowed operation) ∧
    performAll env.unicode env.cascade operations session.db = some (session'.db, sent) ∧
    session'.sent = session.sent ++ sent

section Traced

variable {env : Env} {allowed : Operation → Prop} {first second third : Session}

theorem Traced.refl (env : Env) (allowed : Operation → Prop) (session : Session) :
    Traced env allowed session session :=
  ⟨[], [], by simp, rfl, by simp⟩

private theorem Traced.trans (one : Traced env allowed first second)
    (two : Traced env allowed second third) : Traced env allowed first third := by
  obtain ⟨operations, sent, fine, done, told⟩ := one
  obtain ⟨others, later, alsoFine, followed, toldLater⟩ := two
  refine ⟨operations ++ others, sent ++ later, ?_, performAll_append operations done followed, ?_⟩
  · intro operation member
    rcases List.mem_append.mp member with member | member
    · exact fine operation member
    · exact alsoFine operation member
  · rw [toldLater, told, List.append_assoc]

private theorem traced_of_write {operation : Operation} (allows : allowed operation)
    (done : write env first operation = .ok second) : Traced env allowed first second := by
  unfold write at done
  split at done
  · next db sent performed =>
    obtain rfl := Except.ok.inj done
    exact ⟨[operation], sent, by simpa using allows, by simp [performAll, performed], rfl⟩
  · exact absurd done (by simp)

private theorem traced_of_foldlM {α : Type} {step : Session → α → Saved} {l : List α}
    (each : ∀ a ∈ l, ∀ session session', step session a = .ok session' →
      Traced env allowed session session') :
    ∀ {session session' : Session}, l.foldlM step session = .ok session' →
      Traced env allowed session session' :=
  Library.Runs.foldlM_related (Traced.refl env allowed) Traced.trans each

end Traced

/-- A write to an RRset of a domain that creates it only if it is new since the start. -/
structure Fresh (start : Database) (name : Text) (operation : Operation) : Prop where
  about : ∃ item, About name item operation
  new (item : Item) (ttl : Nat) (creates : operation = .createRRset name item ttl) :
    value start name item = none

section Saves

variable {env : Env} {start : Database} {session session' : Session} {item : Item}
  {attrs : Attrs}

private theorem fresh_inner {name : Text} {operation : Operation}
    (about : About name item operation)
    (other : ∀ ttl, operation ≠ .createRRset name item ttl) : Fresh start name operation := by
  refine ⟨⟨item, about⟩, fun i ttl creates => ?_⟩
  cases about with
  | createRRset ttl => exact absurd rfl (other ttl)
  | saveRRset ttl => exact absurd creates (by simp)
  | deleteRRset => exact absurd creates (by simp)
  | deleteRR content => exact absurd creates (by simp)
  | bulkCreateRRs contents => exact absurd creates (by simp)

private theorem traced_of_saveRecords {records : List Text}
    (done : saveRecords env session item records = .ok session') :
    Traced env (Fresh start env.name) session session' := by
  simp only [saveRecords, bind_eq_ok_iff] at done
  obtain ⟨new, -, next, deleted, created⟩ := done
  refine Traced.trans (traced_of_foldlM (fun operation member _ _ step => ?_) deleted)
    (traced_of_write (fresh_inner (.bulkCreateRRs _) (by simp)) created)
  obtain ⟨content, -, rfl⟩ := List.mem_map.mp member
  exact traced_of_write (fresh_inner (.deleteRR content) (by simp)) step

theorem traced_of_create (new : value start env.name item = none)
    (done : create env session item attrs = .ok session') :
    Traced env (Fresh start env.name) session session' := by
  unfold create at done
  split at done
  · simp only [bind_eq_ok_iff] at done
    obtain ⟨next, added, saved⟩ := done
    refine Traced.trans ?_ (traced_of_saveRecords saved)
    unfold createRRset at added
    dsimp only at added
    split at added
    · exact absurd added (by simp)
    · split at added
      · exact absurd added (by simp)
      · split at added
        · exact absurd added (by simp)
        · refine traced_of_write ⟨⟨item, .createRRset _⟩, fun i ttl creates => ?_⟩ added
          obtain ⟨-, rfl, -⟩ := Operation.createRRset.inj creates
          exact new
  · exact absurd done (by simp)

theorem traced_of_update (done : update env session item attrs = .ok session') :
    Traced env (Fresh start env.name) session session' := by
  simp only [update, bind_eq_ok_iff] at done
  obtain ⟨next, records, ttl⟩ := done
  have saved : Traced env (Fresh start env.name) session next := by
    split at records
    · exact traced_of_saveRecords records
    · exact Except.ok.inj records ▸ Traced.refl _ _ _
  refine saved.trans ?_
  · unfold saveTtl at ttl
    split at ttl
    · exact Except.ok.inj ttl ▸ Traced.refl _ _ _
    · split at ttl
      · exact Except.ok.inj ttl ▸ Traced.refl _ _ _
      · split at ttl
        · exact absurd ttl (by simp)
        · exact traced_of_write (fresh_inner (.saveRRset _) (by simp)) ttl

theorem traced_of_delete (done : delete env session item = .ok session') :
    Traced env (Fresh start env.name) session session' :=
  traced_of_write (fresh_inner .deleteRRset (by simp)) done

theorem traced_of_save {method : Method} {selected : Finset Item} {result : List Attrs}
    (done : save env method session selected result = .ok session') :
    Traced env (Fresh session.db env.name) session session' := by
  have updated (done : listUpdate env session selected result = .ok session') :
      Traced env (Fresh session.db env.name) session session' := by
    have listed {i : Item} (member : i ∈ Writes.keys result) :=
      listed_of_listUpdate done member
    simp only [listUpdate, bind_eq_ok_iff] at done
    obtain ⟨middle, deletes, next, creates, updates⟩ := done
    refine (traced_of_foldlM (fun item _ _ _ step => traced_of_delete step) deletes).trans
      ((traced_of_foldlM (fun item member _ _ step => ?_) creates).trans
        (traced_of_foldlM (fun item _ _ _ step => traced_of_update step) updates))
    rw [env.items.mem_visit, Finset.mem_inter, Finset.mem_sdiff, Finset.mem_sdiff] at member
    obtain ⟨⟨inKeys, unknown⟩, -, nonempty⟩ := member
    refine traced_of_create ?_ step
    refine ((listed inKeys).created (fun known => unknown ?_) nonempty).1
    exact Finset.mem_inter.mpr ⟨known, inKeys⟩
  cases method with
  | post =>
    exact traced_of_foldlM (fun attrs member _ _ step =>
      traced_of_create ((fresh_of_listCreate done).2 attrs member) step) done
  | patch => exact updated done
  | put => exact updated done

end Saves

section Signals

variable {unicode : Unicode} {cascade : Cascade} {start : Database} {name : Text}

/-- A signal about RRs or RRsets of one domain that tells of the creation of new RRsets only. -/
def Telling (start : Database) (name : Text) : Signal → Prop
  | .rrPostSave n _ _ | .rrPostDelete n _ | .rrsetPostDelete n _ => n = name
  | .rrsetPostSave n item created => n = name ∧ (created = true → value start name item = none)
  | .domainPostSave _ _ | .domainPostDelete _ => False

theorem telling_of_fresh {db db' : Database} {operation : Operation} {sent : List Signal}
    (fresh : Fresh start name operation)
    (done : perform unicode cascade db operation = some (db', sent)) :
    ∀ signal ∈ sent, Telling start name signal := by
  obtain ⟨⟨item, about⟩, new⟩ := fresh
  cases about with
  | createRRset ttl =>
    simp only [perform, Option.bind_eq_some_iff, Option.ite_none_right_eq_some, Option.some.injEq,
      Prod.mk.injEq] at done
    obtain ⟨rrsets, -, -, -, rfl⟩ := done
    simpa [Telling] using new item ttl rfl
  | saveRRset ttl =>
    simp only [perform, Option.bind_eq_some_iff, Option.ite_none_right_eq_some, Option.some.injEq,
      Prod.mk.injEq] at done
    obtain ⟨old, -, -, -, rfl⟩ := done
    simp [Telling]
  | deleteRRset =>
    simp only [perform, Option.map_eq_some_iff, Prod.mk.injEq] at done
    obtain ⟨old, -, -, rfl⟩ := done
    intro signal member
    rcases List.mem_append.mp member with rows | own
    · obtain ⟨row, -, rfl⟩ := List.mem_map.mp rows
      rfl
    · rw [List.mem_singleton.mp own]
      rfl
  | deleteRR content =>
    simp only [perform, Option.bind_eq_some_iff, Option.ite_none_right_eq_some, Option.some.injEq,
      Prod.mk.injEq] at done
    obtain ⟨old, -, -, -, rfl⟩ := done
    simp [Telling]
  | bulkCreateRRs contents =>
    simp only [perform, Option.bind_eq_some_iff] at done
    obtain ⟨old, -, done⟩ := done
    split at done
    · obtain ⟨-, rfl⟩ := Prod.mk.inj (Option.some.inj done)
      simp
    · simp only [Option.ite_none_right_eq_some, Option.some.injEq, Prod.mk.injEq] at done
      obtain ⟨-, -, rfl⟩ := done
      simp [Telling]

theorem telling_of_performAll {operations : List Operation} :
    ∀ {db db' : Database} {sent : List Signal},
      (∀ operation ∈ operations, Fresh start name operation) →
      performAll unicode cascade operations db = some (db', sent) →
      ∀ signal ∈ sent, Telling start name signal := by
  induction operations with
  | nil =>
    intro db db' sent _ done
    simp only [performAll, Option.some.injEq, Prod.mk.injEq] at done
    simp [← done.2]
  | cons operation rest ih =>
    intro db db' sent fresh done signal member
    simp only [performAll, Option.bind_eq_bind, Option.bind_eq_some_iff, Option.pure_def,
      Option.some.injEq, Prod.exists, Prod.mk.injEq] at done
    obtain ⟨next, own, head, last, later, followed, rfl, rfl⟩ := done
    rcases List.mem_append.mp member with now | after
    · exact telling_of_fresh (fresh operation (List.mem_cons_self ..)) head signal now
    · exact ih (fun o there => fresh o (List.mem_cons_of_mem _ there)) followed signal after

variable {sent : List Signal} (telling : ∀ signal ∈ sent, Telling start name signal)
include telling

theorem presences_of_telling (d : Text) : presences d sent = [] := by
  apply List.filterMap_eq_nil_iff.mpr
  intro signal member
  have tells := telling signal member
  cases signal with
  | domainPostSave n created => exact absurd tells (by simp [Telling])
  | domainPostDelete n => exact absurd tells (by simp [Telling])
  | _ => rfl

theorem events_of_telling {d : Text} (other : d ≠ name) (item : Item) :
    events d item sent = [] := by
  apply List.filterMap_eq_nil_iff.mpr
  intro signal member
  have tells := telling signal member
  cases signal with
  | domainPostSave n created => rfl
  | domainPostDelete n => rfl
  | rrsetPostSave n i created =>
    obtain ⟨rfl, -⟩ := tells
    simp [Signal.event, Ne.symm other]
  | rrPostSave n i created =>
    obtain rfl : n = name := tells
    simp [Signal.event, Ne.symm other]
  | rrPostDelete n i =>
    obtain rfl : n = name := tells
    simp [Signal.event, Ne.symm other]
  | rrsetPostDelete n i =>
    obtain rfl : n = name := tells
    simp [Signal.event, Ne.symm other]

theorem new_of_telling {item : Item} (created : .created ∈ events name item sent) :
    value start name item = none := by
  obtain ⟨signal, member, said⟩ := List.mem_filterMap.mp created
  have tells := telling signal member
  cases signal with
  | domainPostSave n created => exact absurd said (by simp [Signal.event])
  | domainPostDelete n => exact absurd said (by simp [Signal.event])
  | rrsetPostSave n i created =>
    simp only [Signal.event, Option.ite_none_right_eq_some, Option.some.injEq] at said
    obtain ⟨⟨-, rfl⟩, isCreated⟩ := said
    refine tells.2 ?_
    by_contra old
    simp [old] at isCreated
  | rrPostSave n i created => simp [Signal.event] at said
  | rrPostDelete n i => simp [Signal.event] at said
  | rrsetPostDelete n i => simp [Signal.event] at said

end Signals

end DesecStack.Records.Traces
