/- module: DesecStack/Tenants/Requests
   source: api/desecapi/views/tokens.py, api/desecapi/views/domains.py 81-149,
     api/desecapi/views/users.py 88-133, api/desecapi/views/mfa.py 55-74,
     api/desecapi/serializers/tokens.py, api/desecapi/permissions.py
   digest: The API as one system: requests of all users on domains, RRsets, tokens and policies. -/

import DesecStack.Domains.Delegation
import DesecStack.Tokens.Priorities
import DesecStack.Tokens.Store
import DesecStack.Views.Stored

set_option autoImplicit false
set_option relaxedAutoImplicit false

namespace DesecStack.Tenants.Requests

open Library.PyText (Text Unicode)
open Changes.Models (Database)
open Records.Fields (CharField)
open Records.Serializer (subnameField typeField)
open Names.Qnames (isLocallyRegistrable)
open Tokens.Policies
open Tokens.Priorities (hasDeleteDomainPermission)
open Tokens.Store (Tables Operation policySet findToken perform)
open Domains.Delegation (autoDelegate)
open Views.Stored (isRRsetWrite)
open Views.Writes (Site Caller WriteRequest)

/-- What the views rely on, with the domains under which users may register. -/
structure Service where
  site : Site
  localPublicSuffixes : Finset Text
  registrable (name : Text) :
    site.isLocallyRegistrable name = isLocallyRegistrable localPublicSuffixes name

/-- What requests read of a user. -/
structure Account where
  mfaEnabled : Bool
  limitDomains : Option Nat

/-- The service and the users when a request is handled. -/
structure Environment where
  service : Service
  accounts : Nat → Account

/-- The tables and the RRsets of the domains. -/
structure System where
  tables : Tables
  db : Database

/-- The fields of a token that its user may set. -/
structure TokenFields where
  permCreateDomain : Bool
  permDeleteDomain : Bool
  permManageTokens : Bool
  autoPolicy : Bool

structure PolicyFields where
  domain : Option Text
  subname : Option Text
  type : Option Text
  permWrite : Bool

/-- The requests on tokens and on their policies. New rows come with their primary keys, also the
default policy that a token may get. -/
inductive TokenRequest where
  | create (id policyId : Nat) (fields : TokenFields)
  | update (id policyId : Nat) (fields : TokenFields)
  | destroy (id : Nat)
  | createPolicy (token id : Nat) (fields : PolicyFields)
  | updatePolicy (token id : Nat) (fields : PolicyFields)
  | destroyPolicy (token id : Nat)

/-- The requests that are made with a token. A new domain has keys when it is delegated; a TOTP code
that has been verified is for a factor that was in use before. -/
inductive Request where
  | write (request : WriteRequest) (onRRsets : isRRsetWrite request = true)
  | createDomain (name : Text) (zonefile : Option Text) (policyId : Nat) (keys : List (List Text))
  | destroyDomain (name : Text)
  | manage (request : TokenRequest)
  | verifyTotp (policyId : Nat)
  | logout

section Handlers

variable (env : Environment) (s : System) (token : Token)

/-- The names of the domains of a user. -/
def domainsOf (tables : Tables) (user : Nat) : Finset Text :=
  ((tables.domains.filter fun domain => domain.2 = user).map Prod.fst).toFinset

/-- The user and the token of a request. -/
def callerOf : Caller where
  token := token
  policies := policySet s.tables token.id
  mfaEnabled := (env.accounts token.userId).mfaEnabled
  domains := domainsOf s.tables token.userId
  limitDomains := (env.accounts token.userId).limitDomains

/-- `IsAPIToken | MFARequiredIfEnabled` -/
def mfaPassed (caller : Caller) : Bool :=
  isAPIToken caller.token || mfaRequiredIfEnabled caller.token caller.mfaEnabled

/-- `get_queryset` of `TokenViewSet`, by the primary key. -/
def visibleToken (tables : Tables) (user id : Nat) : Option Token :=
  tables.tokens.find? fun token =>
    token.id = id && (token.owner = user || token.userOverride = some user)

/-- `token_set` of a user, by the primary key. -/
def userToken (tables : Tables) (user id : Nat) : Option Token :=
  tables.tokens.find? fun token => token.id = id && token.userId = user

/-- A text of a policy, which may be null. -/
def policyText (field : CharField) : Option Text → Option (Option Text)
  | none => some none
  | some text =>
      match field.runValidation (.str text) with
      | .ok (some value) => some (some value)
      | _ => none

/-- The validated data of `TokenDomainPolicySerializer`, for a policy of a token. -/
def policyOf (unicode : Unicode) (caller : Caller) (id tokenId : Nat) (fields : PolicyFields) :
    Option TokenDomainPolicy := do
  let subname ← policyText (subnameField unicode) fields.subname
  let type ← policyText (typeField unicode) fields.type
  if fields.domain.all fun name => name ∈ caller.domains then
    some ⟨id, tokenId, fields.domain, subname, type, fields.permWrite⟩
  else none

def withFields (token : Token) (fields : TokenFields) : Token :=
  { token with
    permCreateDomain := fields.permCreateDomain
    permDeleteDomain := fields.permDeleteDomain
    permManageTokens := fields.permManageTokens
    autoPolicy := fields.autoPolicy }

/-- The write to the tables that a request asks for, with the permissions on its object. -/
def operationOf : TokenRequest → Option Operation
  | .create id policyId fields =>
      some (.createToken (withFields ⟨id, token.userId, none, none, false, false, false, false⟩
        fields) policyId)
  | .update id policyId fields => do
      let old ← visibleToken s.tables token.userId id
      if old.userId = token.userId then some (.saveToken (withFields old fields) policyId) else none
  | .destroy id => (visibleToken s.tables token.userId id).map fun old => .deleteToken old.id
  | .createPolicy tokenId id fields => do
      let owner ← userToken s.tables token.userId tokenId
      let policy ← policyOf env.service.site.unicode (callerOf env s token) id owner.id fields
      some (.createPolicy policy)
  | .updatePolicy tokenId id fields => do
      let owner ← visibleToken s.tables token.userId tokenId
      let old ← (policySet s.tables owner.id).find? fun policy => policy.id = id
      let policy ← policyOf env.service.site.unicode (callerOf env s token) old.id owner.id fields
      if owner.userId = token.userId then some (.savePolicy policy) else none
  | .destroyPolicy tokenId id => do
      let owner ← visibleToken s.tables token.userId tokenId
      let old ← (policySet s.tables owner.id).find? fun policy => policy.id = id
      if owner.userId = token.userId then some (.deletePolicy old.id) else none

/-- The views of tokens and of policies. -/
def manage (request : TokenRequest) : Option Operation :=
  if mfaPassed (callerOf env s token) && token.permManageTokens then operationOf env s token request
  else none

/-- A write to the tables; a rejected one changes nothing. -/
def write (operation : Option Operation) : System :=
  { s with tables := (operation.bind (perform s.tables)).getD s.tables }

/-- `update_delegation` of the parent domain, in a tracker block of its own. -/
def delegate (child : Text) (keys : Option (List (List Text))) (db : Database) : Database :=
  match autoDelegate env.service.localPublicSuffixes env.service.site.settings.defaultNs child keys
      db with
  | none => db
  | some delegated => if env.service.site.leaves delegated then delegated else db

/-- `perform_create` of `DomainViewSet`, after the permissions. -/
def createDomain (name : Text) (zonefile : Option Text) (policyId : Nat)
    (keys : List (List Text)) : System :=
  match Views.Writes.createDomain env.service.site (callerOf env s token) s.db name zonefile,
      perform s.tables (.createDomain name token.id policyId) with
  | .ok db, some tables => ⟨tables, delegate env name (some keys) db⟩
  | _, _ => s

/-- `get_object` of `DomainViewSet`, with the permissions to delete the domain. -/
def deletable (caller : Caller) (name : Text) : Bool :=
  mfaPassed caller && decide (name ∈ caller.domains) &&
    (caller.token.userOverride.isNone || caller.policies.isEmpty ||
      caller.policies.any fun policy => policy.domain = some name) &&
    hasDeleteDomainPermission caller.token caller.policies name

/-- `perform_destroy` of `DomainViewSet` -/
def destroyDomain (name : Text) : System :=
  if deletable (callerOf env s token) name && env.service.site.leaves (s.db.erase name) then
    match perform s.tables (.deleteDomain name) with
    | none => s
    | some tables => ⟨tables, delegate env name none (s.db.erase name)⟩
  else s

/-- What a request makes of the system. -/
def respond : Request → System
  | .write request _ =>
      { s with db := Views.Writes.after env.service.site (callerOf env s token) s.db request }
  | .createDomain name zonefile policyId keys =>
    createDomain env s token name zonefile policyId keys
  | .destroyDomain name => destroyDomain env s token name
  | .manage request => write s (manage env s token request)
  | .verifyTotp policyId => write s (some (.saveToken { token with mfa := some true } policyId))
  | .logout => write s (some (.deleteToken token.id))

end Handlers

/-- A login with email and password removes login tokens of the user that have expired, and makes a
new one. -/
def login (user id : Nat) (expired : List Nat) (s : System) : System :=
  let logins := expired.filter fun old => s.tables.tokens.any fun token =>
    token.id = old && token.owner = user && token.userOverride = none && token.mfa.isSome
  let cleaned := (logins.map Operation.deleteToken).foldl (Library.Runs.attempt perform) s.tables
  write { s with tables := cleaned }
    (some (.createToken ⟨id, user, none, some false, true, true, true, false⟩ id))

/-- What happens: a request with the primary key of its token, or a login. -/
inductive Event where
  | request (env : Environment) (auth : Nat) (request : Request)
  | login (user id : Nat) (expired : List Nat)

def step (s : System) : Event → System
  | .request env auth request =>
      match findToken s.tables auth with
      | none => s
      | some token => respond env s token request
  | .login user id expired => login user id expired s

/-- The user who acts. -/
def actor (s : System) : Event → Option Nat
  | .request _ auth _ => (findToken s.tables auth).map Token.userId
  | .login user _ _ => some user

def run (s : System) (events : List Event) : System := events.foldl step s

theorem run_append (s : System) (events : List Event) (event : Event) :
    run s (events ++ [event]) = step (run s events) event := by
  rw [run, List.foldl_append]
  rfl

/-- Each event of a run satisfies a condition in the state in which it happens. -/
def Along (condition : System → Event → Prop) : System → List Event → Prop
  | _, [] => True
  | s, event :: rest => condition s event ∧ Along condition (step s event) rest

theorem along_append {condition : System → Event → Prop} {s : System} {events : List Event}
    {event : Event} : Along condition s (events ++ [event]) ↔
      Along condition s events ∧ condition (run s events) event := by
  induction events generalizing s with
  | nil => simp [Along, run]
  | cons first rest ih =>
    rw [List.cons_append, Along, Along, ih, and_assoc]
    rfl

end DesecStack.Tenants.Requests
