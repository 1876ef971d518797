/- module: DesecStack/Records/Save
   source: api/desecapi/serializers/records.py, api/desecapi/models/records.py
   digest: Saving validated RRsets, one or many, through the models. -/

import DesecStack.Records.Serializer

set_option autoImplicit false
set_option relaxedAutoImplicit false

namespace DesecStack.Records.Save

open Library.PyText
open Library.SetOrder (VisitOrder)
open Changes.Models
open Changes.Pdns (constructName)
open Serializer (Dns Attrs)

/-- How a write can fail: a constraint on RRsets, any other error of the models, or a rejected
set of records. -/
inductive SaveError where
  | unique
  | exclusion
  | refused
  | recordContent (messages : List Text)
  deriving DecidableEq

/-- The database in a transaction, with the signals sent so far. -/
structure Session where
  db : Database
  sent : List Signal

abbrev Saved := Except SaveError Session

/-- What the writes are made for: tables, dnspython, the domain, and the orders of loops. -/
structure Env where
  unicode : Unicode
  dns : Dns
  cascade : Cascade
  contents : VisitOrder Text
  items : VisitOrder Item
  name : Text

section Writes

variable (env : Env)

def write (session : Session) (operation : Operation) : Saved :=
  match perform env.unicode env.cascade session.db operation with
  | some (db, sent) => .ok ⟨db, session.sent ++ sent⟩
  | none => .error .refused

def writeAll (session : Session) (operations : List Operation) : Saved :=
  operations.foldlM (write env) session

/-- `RRset.objects.create`. The constraints are those of the database, which raises an
`IntegrityError`: `full_clean` compares the raw SQL of the exclusion constraint with itself. -/
def createRRset (session : Session) (item : Item) (ttl : Int) : Saved :=
  let rrsets := (session.db.lookup env.name).getD ∅
  if ¬ cnameExclusivity rrsets item then .error .exclusion
  else if item ∈ rrsets.keys then .error .unique
  else if ttl < 0 then .error .refused
  else write env session (.createRRset env.name item ttl.toNat)

def storedRecords (session : Session) (item : Item) : Finset Text :=
  (value session.db env.name item).elim ∅ RRset.records

def dname : Text := "DNAME".toList

def ds : Text := "DS".toList

def dnskey : Text := "DNSKEY".toList

/-- The errors of `clean_records` on the RRset as a whole. -/
def setErrors (item : Item) (count : Nat) : List Text :=
  (if (item.1 = cname ∨ item.1 = dname) ∧ 1 < count then
    [item.1 ++ " RRset cannot have multiple records.".toList] else []) ++
  (if (item.1 = cname ∨ item.1 = ds) ∧ item.2 = [] then
    [item.1 ++ " RRset cannot have empty subname.".toList] else []) ++
  (if item.1 = dnskey ∧ item.2 ≠ [] then
    [item.1 ++ " RRset must have empty subname.".toList] else [])

def recordMessage (item : Item) (record detail : Text) : Text :=
  "Record content of ".toList ++ item.1 ++ " ".toList ++ constructName item.2 env.name ++
    " invalid: '".toList ++ record ++ "': ".toList ++ detail

/-- One round of the loop over records in `clean_records`. -/
def cleanRecord (item : Item) (state : List Text × Finset Text) (record : Text) :
    List Text × Finset Text :=
  match env.dns.canonical record item.1 with
  | .error message => (state.1 ++ [recordMessage env item record message], state.2)
  | .ok canonical =>
      if canonical ∈ state.2 then
        (state.1 ++ [recordMessage env item record
          ("Duplicate record content: this is identical to '".toList ++ canonical ++
            "'".toList)], state.2)
      else (state.1, insert canonical state.2)

/-- `clean_records` -/
def cleanRecords (item : Item) (records : List Text) : Except SaveError (Finset Text) :=
  match records.foldl (cleanRecord env item) (setErrors item records.length, ∅) with
  | ([], canonical) => .ok canonical
  | (errors, _) => .error (.recordContent errors)

/-- `save_records` -/
def saveRecords (session : Session) (item : Item) (records : List Text) : Saved := do
  let new ← cleanRecords env item records
  let stale := env.contents.visit (storedRecords env session item \ new)
  let session ← writeAll env session (stale.map (.deleteRR env.name item))
  let added := env.contents.visit (new \ storedRecords env session item)
  write env session (.bulkCreateRRs env.name item added)

/-- `RRsetSerializer.create` of data with a TTL and records, which validation has ensured. -/
def create (session : Session) (item : Item) (attrs : Attrs) : Saved :=
  match attrs.records, attrs.ttl with
  | some records, some ttl => do
      let session ← createRRset env session item ttl
      saveRecords env session item records
  | _, _ => .error .refused

/-- The TTL is saved where it is given and differs; else only `touched` is updated, which sends
no signal. -/
def saveTtl (session : Session) (item : Item) : Option Int → Saved
  | none => .ok session
  | some ttl =>
      if ttl = 0 ∨ (value session.db env.name item).any (fun rrset => rrset.ttl = ttl) then
        .ok session
      else if ttl < 0 then .error .refused
      else write env session (.saveRRset env.name item ttl.toNat)

/-- `RRsetSerializer.update` -/
def update (session : Session) (item : Item) (attrs : Attrs) : Saved := do
  let session ← (match attrs.records with
    | some records => saveRecords env session item records
    | none => .ok session)
  saveTtl env session item attrs.ttl

def delete (session : Session) (item : Item) : Saved :=
  write env session (.deleteRRset env.name item)

/-- The stored type and subname of validated data; a list has both of every item. -/
def keyOf (attrs : Attrs) : Item := (attrs.type.getD [], attrs.subname.getD [])

def isEmpty (attrs : Attrs) : Bool := attrs.records = some []

/-- `data_index`: of items with the same key the last one stays. -/
def dataFor (validated : List Attrs) (item : Item) : Option Attrs :=
  (validated.filter fun attrs => keyOf attrs = item).getLast?

/-- `ListSerializer.create` -/
def listCreate (session : Session) (validated : List Attrs) : Saved :=
  validated.foldlM (fun session attrs => create env session (keyOf attrs) attrs) session

/-- `RRsetListSerializer.update`, with the queryset given by the items it selects. -/
def listUpdate (session : Session) (queryset : Finset Item) (validated : List Attrs) : Saved := do
  let keys := (validated.map keyOf).toFinset
  let known := queryset ∩ keys
  let unknown := keys \ known
  let empty := ((validated.filter isEmpty).map keyOf).toFinset
  let nonempty := keys \ empty
  let session ← (env.items.visit (known ∩ empty)).foldlM (delete env) session
  let session ← (env.items.visit (unknown ∩ nonempty)).foldlM
    (fun session item => create env session item
      ((dataFor validated item).getD ⟨none, none, none, none⟩)) session
  (env.items.visit (known ∩ nonempty)).foldlM
    (fun session item => update env session item
      ((dataFor validated item).getD ⟨none, none, none, none⟩)) session

end Writes

end DesecStack.Records.Save
