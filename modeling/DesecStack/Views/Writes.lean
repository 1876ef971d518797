/- module: DesecStack/Views/Writes
   source: api/desecapi/views/records.py, api/desecapi/views/dyndns.py,
     api/desecapi/views/domains.py, api/desecapi/serializers/domains.py
   digest: The requests that write RRsets, from their permissions to the commit. -/

import DesecStack.Changes.Compute
import DesecStack.Records.BulkExact
import DesecStack.Tokens.Policies

set_option autoImplicit false
set_option relaxedAutoImplicit false

namespace DesecStack.Views.Writes

open Library.PyText
open Library.SetOrder (VisitOrder)
open Changes.Models
open Changes.Pdns (Settings ns)
open Changes.Compute (Orders apiDo nsItem)
open Records.Fields
open Records.Serializer
open Records.Save
open Records.BulkExact (Method bulkRequest save)
open Tokens.Policies

/-- The user and the token of an authenticated request. -/
structure Caller where
  token : Token
  policies : List TokenDomainPolicy
  mfaEnabled : Bool
  domains : Finset Text
  limitDomains : Option Nat

/-- An RRset in a parsed zone file, with the subname relative to the zone. -/
structure ZoneRRset where
  subname : Text
  type : Text
  ttl : Nat
  records : List Text

/-- What the views rely on: tables, dnspython, the settings, the orders of loops over sets, the
validation of the name of a new domain, and whether leaving a tracker block succeeds. -/
structure Site where
  unicode : Unicode
  dns : Dns
  settings : Settings
  orders : Orders
  contents : VisitOrder Text
  minimumTtl : Text → Nat
  minimumTtlDefault : Nat
  isLocallyRegistrable : Text → Bool
  blockedSubnet : (content : Text) → Bool
  isValidName : Text → Bool
  registerLps : Bool
  parseZonefile : (name zonefile : Text) → Except Text (List ZoneRRset)
  leaves : Database → Bool

/-- How a request is refused; `failed` is an exception that the views do not handle, an
`IntegrityError` (answered with 409) among them. -/
inductive Refusal where
  | notFound
  | forbidden
  | invalid
  | failed
  deriving DecidableEq

abbrev Result := Except Refusal Database

/-- The query parameters by which RRsets are selected. -/
structure Query where
  subname : Option Text
  type : Option Text

inductive WriteRequest where
  | post (name : Text) (data : Json)
  | update (isPartial : Bool) (name : Text) (query : Query) (data : Json)
  | updateDetail (isPartial : Bool) (name : Text) (item : Item) (data : Json)
  | destroyDetail (name : Text) (item : Item)
  | dynDns (name : Text) (subnames : List Text) (rows : List (Item × List Text))
  | createDomain (name : Text) (zonefile : Option Text)

def refusalOf : Raised → Refusal
  | .invalid _ => .invalid
  | .permissionDenied => .forbidden
  | .keyError | .attributeError | .typeError | .unicodeEncodeError | .dataError => .failed

def refusalOfList : Records.ListSerializer.ListRaised → Refusal
  | .rows _ | .notAList _ => .invalid
  | .escaped raised => refusalOf raised

def refusalOfSave : SaveError → Refusal
  | .recordContent _ => .invalid
  | .unique | .exclusion | .refused => .failed

section Handlers

variable (site : Site) (caller : Caller) (db : Database)

def envOf (name : Text) : Env where
  unicode := site.unicode
  dns := site.dns
  cascade := site.orders.cascade
  contents := site.contents
  items := site.orders.items
  name := name

/-- `get_serializer_context`, with the TTL limit that the context may set. -/
def contextOf (name : Text) (rrsets : RRsets) (minimumTtl : Nat) (isPost : Bool)
    (subnameKwarg : Option Text) : Context where
  unicode := site.unicode
  dns := site.dns
  domainName := name
  rrsets := rrsets
  minimumTtl := minimumTtl
  isLocallyRegistrable := site.isLocallyRegistrable name
  blockedSubnet := site.blockedSubnet
  hasObjectPermission item := tokenHasRRsetPermission caller.policies (name, item)
  isPost := isPost
  subnameKwarg := subnameKwarg

/-- The domain in the URL, which has to belong to the user. -/
def domain (name : Text) : Except Refusal RRsets :=
  match db.lookup name with
  | some rrsets => if name ∈ caller.domains then .ok rrsets else .error .notFound
  | none => .error .notFound

/-- The permissions of `RRsetView`, and its domain. -/
def rrsetView (name : Text) : Except Refusal RRsets :=
  if isAPIToken caller.token || mfaRequiredIfEnabled caller.token caller.mfaEnabled then
    domain caller db name
  else .error .forbidden

def saved : Saved → Except Refusal Session
  | .error failure => .error (refusalOfSave failure)
  | .ok session => .ok session

/-- The end of a tracker block, with the transaction. -/
def committed : Except Refusal Session → Result
  | .error refusal => .error refusal
  | .ok session => if site.leaves session.db then .ok session.db else .error .failed

/-- `ConditionalExistenceModelSerializer.save` -/
def conditionalSave (env : Env) (session : Session) (instance? : Instance) (attrs : Attrs) :
    Saved :=
  match instance?, isEmpty attrs with
  | some known, false => update env session known.1 attrs
  | some known, true => delete env session known.1
  | none, false => create env session (keyOf attrs) attrs
  | none, true => .ok session

/-- One RRset is validated and saved. -/
def saveOne (name : Text) (ctx : Context) (isPartial : Bool) (instance? : Instance) :
    Json → Result
  | .dict entries =>
      match runValidation ctx ⟨false, isPartial⟩ instance? entries with
      | .error raised => .error (refusalOf raised)
      | .ok attrs =>
          committed site (saved (conditionalSave (envOf site name) ⟨db, []⟩ instance? attrs))
  | _ => .error .invalid

/-- A list of RRsets is validated and saved. -/
def saveMany (name : Text) (ctx : Context) (method : Method) (selected : Finset Item)
    (session : Session) (data : Json) : Except Refusal Session :=
  match Records.ListSerializer.toInternalValue (bulkRequest method ctx selected) data with
  | .error raised => .error (refusalOfList raised)
  | .ok result => saved (save (envOf site name) method session selected result)

/-- `POST` on `RRsetList`: a list is taken as many RRsets. -/
def post (name : Text) (data : Json) : Result := do
  let rrsets ← rrsetView caller db name
  let ctx := contextOf site caller name rrsets (site.minimumTtl name) true none
  match data with
  | .list _ => committed site (saveMany site name ctx .post ∅ ⟨db, []⟩ data)
  | _ => saveOne site db name ctx false none data

/-- `get_queryset` of `RRsetList` -/
def queryset (rrsets : RRsets) (query : Query) : Except Refusal (Finset Item) :=
  if query.type.any fun type => typesAutomatic.contains type then .error .forbidden
  else .ok (rrsets.keys.filter fun item =>
    (query.subname = none ∨ query.subname = some item.2) ∧
      (query.type = none ∨ query.type = some item.1))

/-- `PATCH` and `PUT` on `RRsetList` -/
def updateMany (isPartial : Bool) (name : Text) (query : Query) (data : Json) : Result := do
  let rrsets ← rrsetView caller db name
  let selected ← queryset rrsets query
  let ctx := contextOf site caller name rrsets (site.minimumTtl name) false none
  let method := if isPartial then Method.patch else Method.put
  committed site (saveMany site name ctx method selected ⟨db, []⟩ data)

/-- `get_object` of `RRsetDetail` for a write. -/
def detailObject (name : Text) (rrsets : RRsets) (item : Item) : Except Refusal RRset :=
  match rrsets.lookup item with
  | none => .error .notFound
  | some rrset =>
      if tokenHasRRsetPermission caller.policies (name, item) then .ok rrset
      else .error .forbidden

/-- `PATCH` and `PUT` on `RRsetDetail` -/
def updateDetail (isPartial : Bool) (name : Text) (item : Item) (data : Json) : Result := do
  let rrsets ← rrsetView caller db name
  let rrset ← detailObject caller name rrsets item
  let ctx := contextOf site caller name rrsets (site.minimumTtl name) false (some item.2)
  saveOne site db name ctx isPartial (some (item, rrset)) data

/-- `DELETE` on `RRsetDetail`; an RRset that is not there is no error. -/
def destroyDetail (name : Text) (item : Item) : Result :=
  let destroyed : Result := do
    let rrsets ← rrsetView caller db name
    let _ ← detailObject caller name rrsets item
    if item = nsItem ∧ site.isLocallyRegistrable name = true then .error .invalid
    else committed site (saved (delete (envOf site name) ⟨db, []⟩ item))
  match destroyed with
  | .error .notFound => .ok db
  | result => result

/-- A row of the data that `DynDNS12UpdateView.get` hands to the serializer. -/
def dynDnsRow (row : Item × List Text) : Json :=
  .dict [(typeKey, .str row.1.1), (subnameKey, .str row.1.2), (ttlKey, .int 60),
    (recordsKey, .list (row.2.map .str))]

/-- `get_queryset` of `DynDNS12UpdateView` -/
def dynDnsQueryset (rrsets : RRsets) (subnames : List Text) : Finset Item :=
  rrsets.keys.filter fun item =>
    item.2 ∈ subnames ∧ (item.1 = "A".toList ∨ item.1 = "AAAA".toList)

/-- The end of `DynDNS12UpdateView.get`, where rows for some subnames are saved. -/
def dynDnsSave (name : Text) (subnames : List Text) (rows : List (Item × List Text)) : Result := do
  let rrsets ← domain caller db name
  let ctx := contextOf site caller name rrsets 60 false none
  committed site (saveMany site name ctx .patch (dynDnsQueryset rrsets subnames) ⟨db, []⟩
    (.list (rows.map dynDnsRow)))

/-- Types that are not taken from a zone file. -/
def isImported (rrset : ZoneRRset) : Bool :=
  !typesAutomatic.contains rrset.type &&
    !(["CDS", "CDNSKEY", "DNSKEY"].map String.toList).contains rrset.type &&
    !(rrset.subname = [] && rrset.type = ns)

/-- A row of the data that `DomainSerializer.create` hands to the serializer of RRsets. -/
def zoneRow (minimumTtl : Nat) (rrset : ZoneRRset) : Json :=
  .dict [(typeKey, .str rrset.type), (ttlKey, .int (max minimumTtl (min maximumTtl rrset.ttl))),
    (subnameKey, .str rrset.subname), (recordsKey, .list (rrset.records.map .str))]

/-- The RRsets that a zone file gives for a new domain. -/
def zoneRRsets (name : Text) : Option Text → Except Refusal (List ZoneRRset)
  | none => .ok []
  | some zonefile =>
      match site.parseZonefile name zonefile with
      | .error _ => .error .invalid
      | .ok rrsets => .ok (rrsets.filter isImported)

/-- `POST` on the list of domains, up to the delegation by the parent domain. -/
def createDomain (name : Text) (zonefile : Option Text) : Result :=
  if ¬ (isAPIToken caller.token || mfaRequiredIfEnabled caller.token caller.mfaEnabled) ∨
      ¬ caller.token.permCreateDomain ∨
      ¬ caller.limitDomains.all (fun limit => caller.domains.card < limit) then .error .forbidden
  else if ¬ site.isValidName name then .error .invalid
  else do
    let rrsets ← zoneRRsets site name zonefile
    if !site.registerLps && site.isLocallyRegistrable name then .error .invalid
    else match perform site.unicode site.orders.cascade db (.createDomain name) with
    | none => .error .failed
    | some (created, sent) =>
        let ctx := contextOf site caller name ∅ site.minimumTtlDefault true none
        let session ← saveMany site name ctx .post ∅ ⟨created, sent⟩
          (.list (rrsets.map (zoneRow site.minimumTtlDefault)))
        -- leaving the block adds the default NS RRset
        match apiDo site.unicode site.settings site.orders session.db (.createDomain name) with
        | none => .error .failed
        | some db => if site.leaves db then .ok db else .error .failed

def handle : WriteRequest → Result
  | .post name data => post site caller db name data
  | .update isPartial name query data => updateMany site caller db isPartial name query data
  | .updateDetail isPartial name item data => updateDetail site caller db isPartial name item data
  | .destroyDetail name item => destroyDetail site caller db name item
  | .dynDns name subnames rows => dynDnsSave site caller db name subnames rows
  | .createDomain name zonefile => createDomain site caller db name zonefile

/-- The database after a request; a request that is refused is rolled back. -/
def after (request : WriteRequest) : Database :=
  match handle site caller db request with
  | .ok db => db
  | .error _ => db

end Handlers

section Views

variable {caller : Caller} {db : Database}

theorem lookup_of_domain {d : Text} {rrsets : RRsets} (found : domain caller db d = .ok rrsets) :
    db.lookup d = some rrsets := by
  unfold domain at found
  split at found
  · next other stored =>
    split at found
    · rw [stored, Except.ok.inj found]
    · exact absurd found (by simp)
  · exact absurd found (by simp)

theorem lookup_of_rrsetView {d : Text} {rrsets : RRsets}
    (found : rrsetView caller db d = .ok rrsets) : db.lookup d = some rrsets := by
  unfold rrsetView at found
  split at found
  · exact lookup_of_domain found
  · exact absurd found (by simp)

theorem subset_of_queryset {rrsets : RRsets} {query : Query} {selected : Finset Item}
    (chosen : queryset rrsets query = .ok selected) : selected ⊆ rrsets.keys := by
  unfold queryset at chosen
  split at chosen
  · exact absurd chosen (by simp)
  · rw [← Except.ok.inj chosen]
    exact Finset.filter_subset _ _

end Views

end DesecStack.Views.Writes
