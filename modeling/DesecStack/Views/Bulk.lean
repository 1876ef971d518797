/- module: DesecStack/Views/Bulk
   source: api/desecapi/views/records.py, api/desecapi/pdns_change_tracker.py
   digest: A bulk request on RRsets from its validation to the commit, where anything may fail. -/

import DesecStack.Records.Faults
import DesecStack.Views.Writes

set_option autoImplicit false
set_option relaxedAutoImplicit false

namespace DesecStack.Views.Bulk

open Library.PyText
open Changes.Models
open Changes.Tracker
open Changes.Pdns
open Changes.Compute
open Records.Fields
open Records.Serializer (Context)
open Records.Save (Env Session Saved)
open Records.BulkExact (Method bulkRequest)
open Records.Faults (Fails)
open Writes

/-- What may go wrong in a request: writes and queries of the database, and requests to PowerDNS,
which may be refused, too large to be sent, or lost. -/
structure Faults where
  fails : Fails
  computing : Bool
  accepts : Accepts

def noFaults (accepts : Accepts) : Faults := ⟨fun _ _ => false, false, accepts⟩

/-- The committed database, and the servers of PowerDNS. -/
structure System where
  db : Database
  servers : Servers

/-- A request ends in an error before the commit, or after it in an answer or an error of the
transfers. -/
inductive Answer where
  | refused (refusal : Refusal)
  | committed (published : Bool)
  deriving DecidableEq

structure BulkRequest where
  method : Method
  name : Text
  query : Query
  rows : List Json

section Request

variable (site : Site) (faults : Faults) (caller : Caller)

/-- A list of RRsets is validated and saved. -/
def saveMany (name : Text) (ctx : Context) (method : Method) (selected : Finset Item)
    (session : Session) (data : Json) : Except Refusal Session :=
  match Records.ListSerializer.toInternalValue (bulkRequest method ctx selected) data with
  | .error raised => .error (refusalOfList raised)
  | .ok result =>
      saved (Records.Faults.save faults.fails (envOf site name) method session selected result)

/-- The RRsets that the list serializer is given, which are none for `POST`. -/
def selection (rrsets : RRsets) (request : BulkRequest) : Except Refusal (Finset Item) :=
  if request.method = .post then .ok ∅ else queryset rrsets request.query

/-- The body of a request: permissions, validation, and the writes in the tracker block. -/
def body (db : Database) (request : BulkRequest) : Except Refusal Session := do
  let rrsets ← rrsetView caller db request.name
  let selected ← selection rrsets request
  let ctx := contextOf site caller request.name rrsets (site.minimumTtl request.name)
    (request.method = .post) none
  saveMany site faults request.name ctx request.method selected ⟨db, []⟩ (.list request.rows)

/-- The loop over changes in `__exit__`; a change that fails ends it, and those before it stay. -/
def runChanges : List PDNSChange → Progress → Progress × Bool
  | [], progress => (progress, true)
  | change :: rest, progress =>
      match execute site.unicode site.settings faults.accepts site.orders progress change with
      | none => (progress, false)
      | some next => runChanges rest next

/-- The transfers after the commit; one that fails ends them. -/
def transfers : List Text → Servers → Servers × Bool
  | [], servers => (servers, true)
  | name :: rest, servers =>
      match transfer site.settings faults.accepts servers name with
      | none => (servers, false)
      | some next => transfers rest next

/-- `__exit__` of the tracker. An error rolls the database back; a signal handler that fails has
done so in the body already. -/
def exit (before : System) (session : Session) : Answer × System :=
  match receiveAll enter session.sent with
  | none => (.refused .failed, before)
  | some tracker =>
      match if faults.computing then none else computeChanges site.orders tracker session.db with
      | none => (.refused .failed, before)
      | some changes =>
          match runChanges site faults changes ⟨session.db, before.servers, ∅⟩ with
          | (progress, false) => (.refused .failed, ⟨before.db, progress.servers⟩)
          | (progress, true) =>
              let names := site.orders.names.visit progress.axfrRequired
              let (servers, published) := transfers site faults names progress.servers
              (.committed published, ⟨progress.db, servers⟩)

/-- A bulk `POST`, `PATCH` or `PUT` on `RRsetList` -/
def bulk (system : System) (request : BulkRequest) : Answer × System :=
  match body site faults caller system.db request with
  | .error refusal => (.refused refusal, system)
  | .ok session => exit site faults system session

end Request

/-- Without failing writes, the body of a request is that of the views. -/
theorem committed_body (site : Site) (accepts : Accepts) (caller : Caller) (db : Database)
    (request : BulkRequest) :
    committed site (body site (noFaults accepts) caller db request)
      = match request.method with
        | .post => post site caller db request.name (.list request.rows)
        | .patch => updateMany site caller db true request.name request.query (.list request.rows)
        | .put => updateMany site caller db false request.name request.query
          (.list request.rows) := by
  have same : saveMany site (noFaults accepts) = Writes.saveMany site := by
    funext name ctx method selected session data
    cases read : Records.ListSerializer.toInternalValue (bulkRequest method ctx selected) data with
    | error raised => simp [saveMany, Writes.saveMany, read]
    | ok result => simp [saveMany, Writes.saveMany, read, noFaults, Records.Faults.save_noFails]
  obtain ⟨method, name, query, rows⟩ := request
  simp only [body, same, selection]
  cases method with
  | post =>
    cases view : rrsetView caller db name with
    | error refusal => simp [post, view, bind, Except.bind, committed]
    | ok rrsets => simp [post, view, bind, Except.bind]
  | patch =>
    cases view : rrsetView caller db name with
    | error refusal => simp [updateMany, view, bind, Except.bind, committed]
    | ok rrsets =>
      cases chosen : queryset rrsets query <;>
        simp [updateMany, view, chosen, bind, Except.bind, committed]
  | put =>
    cases view : rrsetView caller db name with
    | error refusal => simp [updateMany, view, bind, Except.bind, committed]
    | ok rrsets =>
      cases chosen : queryset rrsets query <;>
        simp [updateMany, view, chosen, bind, Except.bind, committed]

end DesecStack.Views.Bulk
