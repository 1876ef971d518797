/- module: DesecStack/Views/Reads
   source: api/desecapi/views/domains.py, api/desecapi/views/records.py
   digest: The requests that read domains and RRsets, and the responses to them. -/

import DesecStack.Names.Qnames
import DesecStack.Tokens.Policies
import DesecStack.Views.Writes

set_option autoImplicit false
set_option relaxedAutoImplicit false

namespace DesecStack.Views.Reads

open Library.PyText
open Changes.Models (Item typesAutomatic)
open Names.Qnames (filterQname)
open Tokens.Policies
open Writes (Query)

/-- An RRset with what is shown of it; times are numbers. -/
structure RRsetRow where
  type : Text
  subname : Text
  created : Nat
  touched : Nat
  ttl : Nat
  records : List Text
  deriving DecidableEq

/-- A domain with what is shown of it, its DNSSEC keys, its exported zone and its RRsets. -/
structure DomainRow where
  name : Text
  owner : Nat
  created : Nat
  published : Option Nat
  touched : Nat
  minimumTtl : Nat
  keys : List Text
  zonefile : Text
  rrsets : List RRsetRow
  deriving DecidableEq

/-- The token of a request with its policies, and whether its user has enabled MFA. -/
structure Reader where
  unicode : Unicode
  token : Token
  policies : List TokenDomainPolicy
  mfaEnabled : Bool

inductive ReadRequest where
  | listDomains (ownsQname : Option Text)
  | retrieveDomain (name : Text) (ownsQname : Option Text)
  | zonefile (name : Text) (ownsQname : Option Text)
  | listRRsets (name : Text) (query : Query)
  | retrieveRRset (name : Text) (item : Item)

/-- A domain as it is listed; the keys are shown on their own only. -/
structure DomainView where
  name : Text
  created : Nat
  published : Option Nat
  touched : Nat
  minimumTtl : Nat
  deriving DecidableEq

inductive Response where
  | domains (views : List DomainView)
  | domain (view : DomainView) (keys : List Text)
  | zonefile (text : Text)
  | rrsets (rows : List RRsetRow)
  | rrset (row : RRsetRow)
  | notFound
  | forbidden
  | serverError
  deriving DecidableEq

def DomainRow.view (row : DomainRow) : DomainView :=
  ⟨row.name, row.created, row.published, row.touched, row.minimumTtl⟩

section Reads

variable (reader : Reader) (rows : List DomainRow)

/-- `request.user.domains`, in the order of creation. -/
def ownDomains : List DomainRow := rows.filter fun row => row.owner = reader.token.userId

def hasPolicy (name : Text) : Bool := reader.policies.any fun policy => policy.domain = some name

/-- `get_queryset` of `DomainViewSet`. A restricted queryset has no `filter_qname`, and `none` is
the `AttributeError` that comes of it. -/
def domainQueryset (ownsQname : Option Text) : Option (List DomainRow) :=
  if reader.token.userOverride.isSome && !reader.policies.isEmpty then
    match ownsQname with
    | none => some ((ownDomains reader rows).filter fun row => hasPolicy reader row.name)
    | some _ => none
  else
    match ownsQname with
    | none => some (ownDomains reader rows)
    | some qname =>
        some (((ownDomains reader rows).filter fun row =>
          filterQname reader.unicode qname row.name).argmax fun row => row.name.length).toList

/-- `get_object` of `DomainViewSet`. With `owns_qname` the queryset is a slice, and the `TypeError`
of filtering it is answered with 404. -/
def domainObject (name : Text) (ownsQname : Option Text) (show? : DomainRow → Response) :
    Response :=
  match domainQueryset reader rows ownsQname with
  | none => .serverError
  | some queryset =>
      if ownsQname.isSome then .notFound
      else
        match queryset.find? fun row => row.name = name with
        | none => .notFound
        | some row => show? row

/-- `DomainViewMixin.domain` -/
def viewDomain (name : Text) : Option DomainRow :=
  (ownDomains reader rows).find? fun row => row.name = name

/-- `get_queryset` of `RRsetList`, for a domain that the user owns. -/
def listRRsets (row : DomainRow) (query : Query) : Response :=
  if query.type.any fun type => typesAutomatic.contains type then .forbidden
  else .rrsets (row.rrsets.filter fun rrset =>
    (query.subname = none ∨ query.subname = some rrset.subname) ∧
      (query.type = none ∨ query.type = some rrset.type))

/-- `get_object` of `RRsetDetail`, where reading needs no permission on the RRset. -/
def retrieveRRset (row : DomainRow) (item : Item) : Response :=
  match row.rrsets.find? fun rrset => (rrset.type, rrset.subname) = item with
  | none => .notFound
  | some rrset => .rrset rrset

def respond (request : ReadRequest) : Response :=
  if isAPIToken reader.token || mfaRequiredIfEnabled reader.token reader.mfaEnabled then
    match request with
    | .listDomains ownsQname =>
        match domainQueryset reader rows ownsQname with
        | none => .serverError
        | some queryset => .domains (queryset.map DomainRow.view)
    | .retrieveDomain name ownsQname =>
        domainObject reader rows name ownsQname fun row => .domain row.view row.keys
    | .zonefile name ownsQname =>
        domainObject reader rows name ownsQname fun row => .zonefile row.zonefile
    | .listRRsets name query =>
        match viewDomain reader rows name with
        | none => .notFound
        | some row => listRRsets row query
    | .retrieveRRset name item =>
        match viewDomain reader rows name with
        | none => .notFound
        | some row => retrieveRRset row item
  else .forbidden

end Reads

end DesecStack.Views.Reads
