/- module: DesecStack/Records/Faults
   source: api/desecapi/serializers/records.py, api/desecapi/models/records.py
   digest: Saving validated RRsets with a database that may fail at any write. -/

import DesecStack.Records.BulkExact

set_option autoImplicit false
set_option relaxedAutoImplicit false

namespace DesecStack.Records.Faults

open Library.PyText
open Library.Runs (OrFails)
open Changes.Models
open Serializer (Attrs)
open Save (Env Session Saved cleanRecords storedRecords keyOf isEmpty dataFor)
open BulkExact (Method)

/-- The writes at which the database fails, by the session that they are made in. -/
abbrev Fails := Session → Operation → Bool

section Writes

variable (fails : Fails) (env : Env)

def write (session : Session) (operation : Operation) : Saved :=
  if fails session operation then .error .refused else Save.write env session operation

def writeAll (session : Session) (operations : List Operation) : Saved :=
  operations.foldlM (write fails env) session

/-- `RRset.objects.create` -/
def createRRset (session : Session) (item : Item) (ttl : Int) : Saved :=
  let rrsets := (session.db.lookup env.name).getD ∅
  if ¬ cnameExclusivity rrsets item then .error .exclusion
  else if item ∈ rrsets.keys then .error .unique
  else if ttl < 0 then .error .refused
  else write fails env session (.createRRset env.name item ttl.toNat)

/-- `save_records` -/
def saveRecords (session : Session) (item : Item) (records : List Text) : Saved := do
  let new ← cleanRecords env item records
  let stale := env.contents.visit (storedRecords env session item \ new)
  let session ← writeAll fails env session (stale.map (.deleteRR env.name item))
  let added := env.contents.visit (new \ storedRecords env session item)
  write fails env session (.bulkCreateRRs env.name item added)

/-- `RRsetSerializer.create` -/
def create (session : Session) (item : Item) (attrs : Attrs) : Saved :=
  match attrs.records, attrs.ttl with
  | some records, some ttl => do
      let session ← createRRset fails env session item ttl
      saveRecords fails env session item records
  | _, _ => .error .refused

def saveTtl (session : Session) (item : Item) : Option Int → Saved
  | none => .ok session
  | some ttl =>
      if ttl = 0 ∨ (value session.db env.name item).any (fun rrset => rrset.ttl = ttl) then
        .ok session
      else if ttl < 0 then .error .refused
      else write fails env session (.saveRRset env.name item ttl.toNat)

/-- `RRsetSerializer.update` -/
def update (session : Session) (item : Item) (attrs : Attrs) : Saved := do
  let session ← (match attrs.records with
    | some records => saveRecords fails env session item records
    | none => .ok session)
  saveTtl fails env session item attrs.ttl

def delete (session : Session) (item : Item) : Saved :=
  write fails env session (.deleteRRset env.name item)

/-- `ListSerializer.create` -/
def listCreate (session : Session) (validated : List Attrs) : Saved :=
  validated.foldlM (fun session attrs => create fails env session (keyOf attrs) attrs) session

/-- `RRsetListSerializer.update` -/
def listUpdate (session : Session) (queryset : Finset Item) (validated : List Attrs) : Saved := do
  let keys := (validated.map keyOf).toFinset
  let known := queryset ∩ keys
  let unknown := keys \ known
  let empty := ((validated.filter isEmpty).map keyOf).toFinset
  let nonempty := keys \ empty
  let session ← (env.items.visit (known ∩ empty)).foldlM (delete fails env) session
  let session ← (env.items.visit (unknown ∩ nonempty)).foldlM
    (fun session item => create fails env session item
      ((dataFor validated item).getD ⟨none, none, none, none⟩)) session
  (env.items.visit (known ∩ nonempty)).foldlM
    (fun session item => update fails env session item
      ((dataFor validated item).getD ⟨none, none, none, none⟩)) session

/-- `create` or `update` of the list serializer. -/
def save (method : Method) (session : Session) (selected : Finset Item) (result : List Attrs) :
    Saved :=
  match method with
  | .post => listCreate fails env session result
  | .patch | .put => listUpdate fails env session selected result

end Writes

theorem save_noFails (env : Env) (method : Method) (session : Session) (selected : Finset Item)
    (result : List Attrs) :
    save (fun _ _ => false) env method session selected result
      = BulkExact.save env method session selected result := by
  cases method with
  | post => rfl
  | patch => rfl
  | put => rfl

section OrFails

variable (fails : Fails) (env : Env)

private theorem write_orFails (session : Session) (operation : Operation) :
    OrFails (write fails env session operation) (Save.write env session operation) := by
  unfold write
  split
  · exact Or.inr ⟨_, rfl⟩
  · exact OrFails.refl _

private theorem createRRset_orFails (session : Session) (item : Item) (ttl : Int) :
    OrFails (createRRset fails env session item ttl) (Save.createRRset env session item ttl) := by
  simp only [createRRset, Save.createRRset]
  split
  · exact OrFails.refl _
  · split
    · exact OrFails.refl _
    · split
      · exact OrFails.refl _
      · exact write_orFails fails env session _

private theorem saveRecords_orFails (session : Session) (item : Item) (records : List Text) :
    OrFails (saveRecords fails env session item records)
      (Save.saveRecords env session item records) := by
  refine (OrFails.refl _).bind fun new => OrFails.bind ?_ fun next => ?_
  · exact OrFails.foldlM (fun operation _ session => write_orFails fails env session operation) _
  · exact write_orFails fails env next _

private theorem create_orFails (session : Session) (item : Item) (attrs : Attrs) :
    OrFails (create fails env session item attrs) (Save.create env session item attrs) := by
  simp only [create, Save.create]
  cases attrs.records with
  | none => exact OrFails.refl _
  | some records =>
    cases attrs.ttl with
    | none => exact OrFails.refl _
    | some ttl =>
      exact (createRRset_orFails fails env session item ttl).bind fun next =>
        saveRecords_orFails fails env next item records

private theorem saveTtl_orFails (session : Session) (item : Item) (ttl : Option Int) :
    OrFails (saveTtl fails env session item ttl) (Save.saveTtl env session item ttl) := by
  cases ttl with
  | none => exact OrFails.refl _
  | some ttl =>
    simp only [saveTtl, Save.saveTtl]
    split
    · exact OrFails.refl _
    · split
      · exact OrFails.refl _
      · exact write_orFails fails env session _

private theorem update_orFails (session : Session) (item : Item) (attrs : Attrs) :
    OrFails (update fails env session item attrs) (Save.update env session item attrs) := by
  refine OrFails.bind ?_ fun next => saveTtl_orFails fails env next item attrs.ttl
  cases attrs.records with
  | none => exact OrFails.refl _
  | some records => exact saveRecords_orFails fails env session item records

theorem save_orFails (method : Method) (session : Session) (selected : Finset Item)
    (result : List Attrs) :
    OrFails (save fails env method session selected result)
      (BulkExact.save env method session selected result) := by
  have updated : OrFails (listUpdate fails env session selected result)
      (Save.listUpdate env session selected result) :=
    (OrFails.foldlM (fun item _ session => write_orFails fails env session _) session).bind
      fun middle => (OrFails.foldlM (fun item _ session => create_orFails fails env session item _)
        middle).bind fun next =>
          OrFails.foldlM (fun item _ session => update_orFails fails env session item _) next
  cases method with
  | post => exact OrFails.foldlM (fun attrs _ session => create_orFails fails env session _ attrs) _
  | patch => exact updated
  | put => exact updated

end OrFails

end DesecStack.Records.Faults
