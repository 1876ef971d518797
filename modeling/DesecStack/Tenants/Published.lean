/- module: DesecStack/Tenants/Published
   source: api/desecapi/views/domains.py 99-136, api/desecapi/views/records.py,
     api/desecapi/views/dyndns.py 338-386, api/desecapi/models/domains.py 255-295,
     api/desecapi/models/records.py 73-78, api/desecapi/pdns_change_tracker.py 220-265
   digest: Writing requests with their tracker blocks, from the database to PowerDNS. -/

import DesecStack.Tenants.Requests
import DesecStack.Views.Bulk

set_option autoImplicit false
set_option relaxedAutoImplicit false

namespace DesecStack.Tenants.Published

open Library.PyText (Text Unicode)
open Changes.Models
open Changes.Pdns (ns)
open Changes.Compute (Orders apiDo)
open Names.Qnames (parentDomainName)
open Domains.Delegation (delegating ds)
open Records.Fields (Json)
open Records.Serializer (Context Instance runValidation)
open Records.Save (Session)
open Views.Stored (isRRsetWrite)
open Views.Writes
open Views.Bulk (Faults System Answer exit)
open Requests (deletable)

section Bodies

variable (site : Site) (caller : Caller) (db : Database)

/-- One RRset is validated and saved in a tracker block. -/
def saveOne (name : Text) (ctx : Context) (isPartial : Bool) (instance? : Instance) :
    Json → Except Refusal Session
  | .dict entries =>
      match runValidation ctx ⟨false, isPartial⟩ instance? entries with
      | .error raised => .error (refusalOf raised)
      | .ok attrs => saved (conditionalSave (envOf site name) ⟨db, []⟩ instance? attrs)
  | _ => .error .invalid

/-- `POST` on `RRsetList` -/
def post (name : Text) (data : Json) : Except Refusal Session := do
  let rrsets ← rrsetView caller db name
  let ctx := contextOf site caller name rrsets (site.minimumTtl name) true none
  match data with
  | .list _ => saveMany site name ctx .post ∅ ⟨db, []⟩ data
  | _ => saveOne site db name ctx false none data

/-- `PATCH` and `PUT` on `RRsetList` -/
def updateMany (isPartial : Bool) (name : Text) (query : Query) (data : Json) :
    Except Refusal Session := do
  let rrsets ← rrsetView caller db name
  let selected ← queryset rrsets query
  let ctx := contextOf site caller name rrsets (site.minimumTtl name) false none
  saveMany site name ctx (if isPartial then .patch else .put) selected ⟨db, []⟩ data

/-- `PATCH` and `PUT` on `RRsetDetail` -/
def updateDetail (isPartial : Bool) (name : Text) (item : Item) (data : Json) :
    Except Refusal Session := do
  let rrsets ← rrsetView caller db name
  let rrset ← detailObject caller name rrsets item
  let ctx := contextOf site caller name rrsets (site.minimumTtl name) false (some item.2)
  saveOne site db name ctx isPartial (some (item, rrset)) data

/-- `perform_destroy` of `RRsetDetail` -/
def destroyDetail (name : Text) (item : Item) : Except Refusal Session := do
  let rrsets ← rrsetView caller db name
  let _ ← detailObject caller name rrsets item
  if item = Changes.Compute.nsItem ∧ site.isLocallyRegistrable name = true then .error .invalid
  else saved (Records.Save.delete (envOf site name) ⟨db, []⟩ item)

/-- The end of `DynDNS12UpdateView.get`, where rows for some subnames are saved. -/
def dynDnsSave (name : Text) (subnames : List Text) (rows : List (Item × List Text)) :
    Except Refusal Session := do
  let rrsets ← domain caller db name
  let ctx := contextOf site caller name rrsets 60 false none
  saveMany site name ctx .patch (dynDnsQueryset rrsets subnames) ⟨db, []⟩
    (.list (rows.map dynDnsRow))

/-- `POST` on the list of domains: the domain and the RRsets of its zone file. -/
def createDomain (name : Text) (zonefile : Option Text) : Except Refusal Session :=
  if ¬ (Tokens.Policies.isAPIToken caller.token ||
        Tokens.Policies.mfaRequiredIfEnabled caller.token caller.mfaEnabled) ∨
      ¬ caller.token.permCreateDomain ∨
      ¬ caller.limitDomains.all (fun limit => caller.domains.card < limit) then .error .forbidden
  else if ¬ site.isValidName name then .error .invalid
  else do
    let rrsets ← zoneRRsets site name zonefile
    if !site.registerLps && site.isLocallyRegistrable name then .error .invalid
    else match perform site.unicode site.orders.cascade db (.createDomain name) with
    | none => .error .failed
    | some (created, sent) =>
        saveMany site name (contextOf site caller name ∅ site.minimumTtlDefault true none) .post ∅
          ⟨created, sent⟩ (.list (rrsets.map (zoneRow site.minimumTtlDefault)))

/-- The writes of a request in its tracker block, before PowerDNS is told. -/
def body : WriteRequest → Except Refusal Session
  | .post name data => post site caller db name data
  | .update isPartial name query data => updateMany site caller db isPartial name query data
  | .updateDetail isPartial name item data => updateDetail site caller db isPartial name item data
  | .destroyDetail name item => destroyDetail site caller db name item
  | .dynDns name subnames rows => dynDnsSave site caller db name subnames rows
  | .createDomain name zonefile => createDomain site caller db name zonefile

/-- `perform_destroy` of `DomainViewSet`, in its first tracker block. -/
def destroyDomain (name : Text) : Except Refusal Session :=
  if deletable caller name then
    match perform site.unicode site.orders.cascade db (.deleteDomain name) with
    | none => .error .notFound
    | some (erased, sent) => .ok ⟨erased, sent⟩
  else .error .forbidden

/-- `RRset.objects.create` with contents -/
def createRRset (name : Text) (item : Item) (ttl : Nat) (contents : List Text) : List Operation :=
  .createRRset name item ttl :: contents.map (.createRR name item)

/-- The RRsets that `update_delegation` removes first. -/
def removals (parent child : Text) : List Operation :=
  (site.orders.items.visit (itemsOf db parent ∩ {delegating ns child, delegating ds child})).map
    (.deleteRRset parent)

/-- The writes of `update_delegation`; `none` is an exception. Without keys, the child has no
primary key. -/
def delegationWrites (parent child : Text) (keys : Option (List (List Text))) :
    Option (List Operation) :=
  if parentDomainName child ≠ some parent then none
  else
    match keys with
    | none => some (removals site db parent child)
    | some [] => none
    | some keys => some (removals site db parent child ++
        createRRset parent (delegating ns child) 3600 site.settings.defaultNs ++
        createRRset parent (delegating ds child) 300 keys.flatten)

/-- The second tracker block of a created or deleted domain, which updates its delegation. -/
def delegation (child : Text) (keys : Option (List (List Text))) : Except Refusal Session :=
  if site.isLocallyRegistrable child then
    match (parentDomainName child).filter fun parent => (db.lookup parent).isSome with
    | none => .error .failed
    | some parent =>
        match (delegationWrites site db parent child keys).bind fun operations =>
            performAll site.unicode site.orders.cascade operations db with
        | none => .error .failed
        | some (delegated, sent) => .ok ⟨delegated, sent⟩
  else .ok ⟨db, []⟩

end Bodies

/-- The requests that write RRsets and domains. A new domain has keys when it is delegated. -/
inductive Request where
  | records (request : WriteRequest) (onRRsets : isRRsetWrite request = true)
  | createDomain (name : Text) (zonefile : Option Text) (keys : List (List Text))
  | destroyDomain (name : Text)

/-- A request with what goes wrong in its tracker blocks. Character tables stay the same. -/
structure Call (unicode : Unicode) where
  site : Site
  sameUnicode : site.unicode = unicode
  faults : Faults
  laterFaults : Faults
  caller : Caller
  request : Request

section Blocks

variable (site : Site) (faults : Faults) (system : System)

/-- A tracker block. An error in its body rolls the database back. -/
def block : Except Refusal Session → Answer × System
  | .error refusal => (.refused refusal, system)
  | .ok session => exit site faults system session

/-- The block of a request on RRsets; to delete an RRset that is not there is no error. -/
def recordsBlock : WriteRequest → Except Refusal Session → Answer × System
  | .destroyDetail _ _, .error .notFound => (.committed true, system)
  | _, result => block site faults system result

end Blocks

section Responses

variable {unicode : Unicode} (call : Call unicode) (system : System)

/-- The first tracker block of a request. -/
def firstBlock : Answer × System :=
  match call.request with
  | .records request _ =>
      recordsBlock call.site call.faults system request
        (body call.site call.caller system.db request)
  | .createDomain name zonefile _ =>
      block call.site call.faults system
        (createDomain call.site call.caller system.db name zonefile)
  | .destroyDomain name =>
      block call.site call.faults system (destroyDomain call.site call.caller system.db name)

/-- What a delegation is updated for. -/
def delegated : Request → Option (Text × Option (List (List Text)))
  | .records _ _ => none
  | .createDomain name _ keys => some (name, some keys)
  | .destroyDomain name => some (name, none)

/-- A request with its tracker blocks; the second one is entered unless the first one raises. -/
def respond : Answer × System :=
  match firstBlock call system, delegated call.request with
  | (.committed true, next), some (child, keys) =>
      block call.site call.laterFaults next (delegation call.site next.db child keys)
  | first, _ => first

end Responses

/-- The database and PowerDNS after some requests. -/
def run {unicode : Unicode} (system : System) (calls : List (Call unicode)) : System :=
  calls.foldl (fun system call => (respond call system).2) system

section Bodies

variable (site : Site) (caller : Caller) (db : Database)

/-- What leaving the block of a request makes of the database, for the views. -/
def left : WriteRequest → Except Refusal Session → Result
  | .destroyDetail _ _, .error .notFound => .ok db
  | .createDomain name _, .ok session =>
      match apiDo site.unicode site.settings site.orders session.db (.createDomain name) with
      | none => .error .failed
      | some db => if site.leaves db then .ok db else .error .failed
  | _, result => committed site result

variable {site caller db}

private theorem saveOne_eq (name : Text) (ctx : Context) (isPartial : Bool) (instance? : Instance)
    (data : Json) : Views.Writes.saveOne site db name ctx isPartial instance? data
      = committed site (saveOne site db name ctx isPartial instance? data) := by
  cases data with
  | dict entries =>
    cases validated : runValidation ctx ⟨false, isPartial⟩ instance? entries <;>
      simp only [Views.Writes.saveOne, saveOne, validated, committed]
  | _ => rfl

/-- The bodies are those of the views. -/
theorem handle_eq (request : WriteRequest) :
    handle site caller db request = left site db request (body site caller db request) := by
  cases request with
  | post name data =>
    rw [handle, body, Views.Writes.post, post, left]
    · cases rrsetView caller db name with
      | error refusal => rfl
      | ok rrsets =>
        cases data with
        | list rows => rfl
        | _ => simpa only [bind, Except.bind] using saveOne_eq ..
    · simp
    · simp
  | update isPartial name query data =>
    rw [handle, body, Views.Writes.updateMany, updateMany, left]
    · cases rrsetView caller db name with
      | error refusal => rfl
      | ok rrsets =>
        cases chosen : queryset rrsets query <;> simp [chosen, bind, Except.bind, committed]
    · simp
    · simp
  | updateDetail isPartial name item data =>
    rw [handle, body, Views.Writes.updateDetail, updateDetail, left]
    · cases rrsetView caller db name with
      | error refusal => rfl
      | ok rrsets =>
        cases found : detailObject caller name rrsets item with
        | error refusal => simp [found, bind, Except.bind, committed]
        | ok rrset => simpa [found, bind, Except.bind] using saveOne_eq ..
    · simp
    · simp
  | destroyDetail name item =>
    rw [handle, body, Views.Writes.destroyDetail, destroyDetail]
    cases rrsetView caller db name with
    | error refusal => cases refusal <;> rfl
    | ok rrsets =>
      cases found : detailObject caller name rrsets item with
      | error refusal => cases refusal <;> simp [found, bind, Except.bind, left, committed]
      | ok rrset =>
        by_cases apex : item = Changes.Compute.nsItem ∧ site.isLocallyRegistrable name = true
        · simp only [found, if_pos apex, bind, Except.bind, left, committed]
        · cases Records.Save.delete (envOf site name) ⟨db, []⟩ item with
          | error failure =>
            cases failure <;>
              simp [found, apex, bind, Except.bind, saved, refusalOfSave, left, committed]
          | ok session =>
            by_cases leaves : site.leaves session.db = true <;>
              simp [found, apex, leaves, bind, Except.bind, saved, left, committed]
  | dynDns name subnames rows =>
    rw [handle, body, Views.Writes.dynDnsSave, dynDnsSave, left]
    · cases domain caller db name <;> rfl
    · simp
    · simp
  | createDomain name zonefile =>
    rw [handle, body, Views.Writes.createDomain, createDomain]
    split
    · rfl
    · split
      · rfl
      · cases zoneRRsets site name zonefile with
        | error refusal => rfl
        | ok rrsets =>
          simp only [bind, Except.bind]
          split
          · rfl
          · cases perform site.unicode site.orders.cascade db (.createDomain name) with
            | none => rfl
            | some made =>
              dsimp only
              generalize saveMany site name _ .post ∅ _ _ = result
              cases result <;> rfl

end Bodies

section Delegations

variable {unicode : Unicode} {cascade : Cascade} {db db' : Database} {sent : List Signal}
  {parent : Text} {item : Item}

theorem performAll_cons {operation : Operation} {rest : List Operation}
    (done : performAll unicode cascade (operation :: rest) db = some (db', sent)) :
    ∃ middle own others, perform unicode cascade db operation = some (middle, own) ∧
      performAll unicode cascade rest middle = some (db', others) ∧ sent = own ++ others := by
  simp only [performAll, Option.bind_eq_bind, Option.bind_eq_some_iff, Option.pure_def,
    Option.some.injEq, Prod.exists, Prod.mk.injEq] at done
  obtain ⟨middle, own, performed, last, others, after, rfl, rfl⟩ := done
  exact ⟨middle, own, others, performed, after, rfl⟩

theorem performAll_append {first later : List Operation}
    (done : performAll unicode cascade (first ++ later) db = some (db', sent)) :
    ∃ middle own others, performAll unicode cascade first db = some (middle, own) ∧
      performAll unicode cascade later middle = some (db', others) ∧ sent = own ++ others := by
  induction first generalizing db sent with
  | nil => exact ⟨db, [], sent, rfl, done, rfl⟩
  | cons operation rest ih =>
    obtain ⟨next, said, after, performed, follows, rfl⟩ := performAll_cons done
    obtain ⟨middle, own, others, start, finish, rfl⟩ := ih follows
    refine ⟨middle, said ++ own, others, ?_, finish, by rw [List.append_assoc]⟩
    simp [performAll, performed, start]

private theorem value_of_createRRs {contents : List Text} {rrset : RRset}
    (found : value db parent item = some rrset)
    (done : performAll unicode cascade (contents.map (.createRR parent item)) db
      = some (db', sent)) (d : Text) (i : Item) :
    value db' d i = if d = parent ∧ i = item then
        some { rrset with records := rrset.records ∪ contents.toFinset }
      else value db d i := by
  induction contents generalizing db rrset sent with
  | nil =>
    simp only [List.map_nil, performAll, Option.some.injEq, Prod.mk.injEq] at done
    rw [← done.1]
    by_cases here : d = parent ∧ i = item
    · simp [here, found]
    · rw [if_neg here]
  | cons content rest ih =>
    obtain ⟨middle, own, others, performed, after, rfl⟩ := performAll_cons done
    simp only [perform, found, Option.bind_some, Option.ite_none_right_eq_some, Option.some.injEq,
      Prod.mk.injEq] at performed
    obtain ⟨-, rfl, rfl⟩ := performed
    have moved := value_put (lookup_of_value found) item
      (some { rrset with records := insert content rrset.records })
    rw [ih (by rw [moved]; exact if_pos ⟨rfl, rfl⟩) after, moved]
    by_cases here : d = parent ∧ i = item
    · simp [here, Finset.insert_union, Finset.union_insert]
    · simp [here]

private theorem value_of_createRRset {ttl : Nat} {contents : List Text}
    (done : performAll unicode cascade (createRRset parent item ttl contents) db
      = some (db', sent)) (d : Text) (i : Item) :
    value db' d i =
      if d = parent ∧ i = item then some ⟨ttl, contents.toFinset⟩ else value db d i := by
  obtain ⟨middle, own, others, performed, after, -⟩ := performAll_cons done
  simp only [perform, Option.bind_eq_some_iff, Option.ite_none_right_eq_some, Option.some.injEq,
    Prod.mk.injEq] at performed
  obtain ⟨rrsets, found, -, rfl, -⟩ := performed
  have present : (db.lookup parent).isSome := found ▸ rfl
  have made := value_put present item (some ⟨ttl, ∅⟩)
  rw [value_of_createRRs (by rw [made]; exact if_pos ⟨rfl, rfl⟩) after, made]
  by_cases here : d = parent ∧ i = item
  · simp [here]
  · simp [here]

private theorem value_of_removals {items : List Item}
    (done : performAll unicode cascade (items.map (.deleteRRset parent)) db = some (db', sent))
    (d : Text) (i : Item) :
    value db' d i = if d = parent ∧ i ∈ items then none else value db d i := by
  induction items generalizing db sent with
  | nil =>
    simp only [List.map_nil, performAll, Option.some.injEq, Prod.mk.injEq] at done
    simp [done.1]
  | cons item rest ih =>
    obtain ⟨middle, own, others, performed, after, -⟩ := performAll_cons done
    simp only [perform, Option.map_eq_some_iff, Prod.mk.injEq] at performed
    obtain ⟨rrset, found, rfl, -⟩ := performed
    rw [ih after, value_put (lookup_of_value found) item none]
    by_cases here : d = parent <;> by_cases gone : i = item <;> simp [here, gone]

variable {site : Site} {child : Text} {keys : Option (List (List Text))} {session : Session}

/-- The writes of a delegation leave what the update of the RRsets leaves. -/
theorem autoDelegate_of_delegation {localPublicSuffixes : Finset Text}
    (registrable : site.isLocallyRegistrable child =
      Names.Qnames.isLocallyRegistrable localPublicSuffixes child)
    (done : delegation site db child keys = .ok session) :
    ∃ delegated, Domains.Delegation.autoDelegate localPublicSuffixes site.settings.defaultNs child
        keys db = some delegated ∧ ∀ d i, value session.db d i = value delegated d i := by
  unfold delegation at done
  unfold Domains.Delegation.autoDelegate
  rw [registrable] at done
  split at done
  · next under =>
    rw [if_pos under]
    split at done
    · cases done
    · next parent found =>
      obtain ⟨isParent, present⟩ := Option.filter_eq_some_iff.mp found
      split at done
      · cases done
      · next delegated sent performed =>
        obtain rfl := Except.ok.inj done
        obtain ⟨operations, writes, performed⟩ := Option.bind_eq_some_iff.mp performed
        rw [isParent, Option.bind_some, if_pos present, Domains.Delegation.updateDelegation,
          if_neg (not_not_intro isParent)]
        unfold delegationWrites at writes
        rw [if_neg (not_not_intro isParent)] at writes
        have removed {last : Database} {own : List Signal} (ran : performAll site.unicode
            site.orders.cascade (removals site db parent child) db = some (last, own))
            (d : Text) (i : Item) : value last d i = value (put (put db parent (delegating ns child)
              none) parent (delegating ds child) none) d i := by
          rw [value_of_removals ran, value_put (by simpa using present), value_put present]
          by_cases here : d = parent
          · by_cases stored : i ∈ itemsOf db parent
            · by_cases isNs : i = delegating ns child <;>
                by_cases isDs : i = delegating ds child <;>
                simp_all
            · have absent : value db parent i = none := by
                simpa [mem_itemsOf] using stored
              simp [here, stored, absent]
          · simp [here]
        split at writes
        · obtain rfl := Option.some.inj writes
          exact ⟨_, rfl, removed performed⟩
        · cases writes
        · next given nonempty =>
          obtain ⟨key, others, rfl⟩ := List.exists_cons_of_ne_nil nonempty
          obtain rfl := Option.some.inj writes
          obtain ⟨middle, own, later, first, dsDone, -⟩ := performAll_append performed
          obtain ⟨start, old, nsSent, gone, nsDone, -⟩ := performAll_append first
          refine ⟨_, rfl, fun d i => ?_⟩
          have there : ((put (put db parent (delegating ns child) none) parent
              (delegating ds child) none).lookup parent).isSome := by simpa using present
          generalize put (put db parent (delegating ns child) none) parent (delegating ds child)
            none = base at removed there ⊢
          rw [value_of_createRRset dsDone, value_of_createRRset nsDone, removed gone,
            value_put (by simpa using there), value_put there]
  · next outside =>
    rw [if_neg outside]
    exact ⟨db, rfl, fun _ _ => Except.ok.inj done ▸ rfl⟩

end Delegations

end DesecStack.Tenants.Published
