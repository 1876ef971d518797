/- module: DesecStack/Accounts/Actions
   source: api/desecapi/models/authenticated_actions.py, api/desecapi/models/users.py,
     api/desecapi/models/mfa.py, api/desecapi/models/tokens.py
   digest: Users, factors, tokens and domains, and the actions that verification codes authorise. -/

import DesecStack.Accounts.Totp
import DesecStack.Domains.Renewal
import DesecStack.Library.Json
import DesecStack.Tokens.Policies

set_option autoImplicit false
set_option relaxedAutoImplicit false

namespace DesecStack.Accounts.Actions

open Library.PyText (Text ofInt)
open Library.Json (Value dumps)
open Domains.Scavenge (Domain RenewalState)
open Totp (TOTPFactor matchTimestep)

/-- A user row. Without a password, it is unusable. -/
structure User where
  id : Nat
  email : Text
  password : Option Text
  isActive : Option Bool
  created : Nat
  credentialsChanged : Nat
  lastLogin : Option Nat
  needsCaptcha : Bool
  outreachPreference : Bool
  deriving DecidableEq

/-- A factor row: the columns of `BaseFactor`, and those of `TOTPFactor` that `verify` uses. -/
structure Factor where
  id : Nat
  user : Nat
  name : Text
  totp : TOTPFactor
  deriving DecidableEq

/-- A token row. -/
structure Token extends Tokens.Policies.Token where
  name : Text
  created : Nat
  lastUsed : Option Nat
  maxAge : Option Nat
  maxUnusedPeriod : Option Nat
  deriving DecidableEq

/-- The actions, with what their codes say about them. -/
inductive Action where
  | changeOutreachPreference (user : Nat) (outreachPreference : Bool)
  | activate (user : Nat) (domain : Option Text)
  | activateWithOverrideToken (user token : Nat)
  | changeEmail (user : Nat) (newEmail : Text)
  | confirmAccount (user : Nat)
  | createTotp (user : Nat) (name : Text)
  | resetPassword (user : Nat)
  | deleteAccount (user : Nat)
  | renewDomain (user domain : Nat)
  deriving DecidableEq

/-- What the program gets from elsewhere: the results of `timezone.now()` in microseconds, how ids
and times are written, the hash function, the one-time passwords of a factor by timestep, what the
user manager and the collation make of email addresses, and a setting. -/
structure Environment (Hash : Type) where
  clock : Nat → Nat
  uuid : Nat → Text
  isoformat : Nat → Text
  str : Nat → Text
  sha256 : Text → Hash
  generateOtp : Nat → Nat → Text
  normalizeEmail : Text → Text
  collation : Text → Text
  validityPeriod : Nat

/-- A verification code, as decrypted. -/
structure Code (Hash : Type) where
  action : Action
  state : Hash
  deriving DecidableEq

/-- The tables, the number of ids given out and of calls to `timezone.now()`, the codes that
account operations have issued, those that operators have mailed, and those redeemed. -/
structure Store (Hash : Type) where
  users : List User
  factors : List Factor
  tokens : List Token
  domains : List Domain
  nextId : Nat
  calls : Nat
  issued : List (Code Hash)
  mailed : List (Code Hash)
  redeemed : List (Code Hash)

def Store.empty (Hash : Type) : Store Hash := ⟨[], [], [], [], 0, 0, [], [], []⟩

def Action.user : Action → Nat
  | .changeOutreachPreference user _ | .activate user _ | .activateWithOverrideToken user _
  | .changeEmail user _ | .confirmAccount user | .createTotp user _ | .resetPassword user
  | .deleteAccount user | .renewDomain user _ => user

/-- `__module__` and `__qualname__` -/
def Action.name (action : Action) : Text :=
  "desecapi.models.authenticated_actions.".toList ++
    match action with
    | .changeOutreachPreference .. => "AuthenticatedChangeOutreachPreferenceUserAction".toList
    | .activate .. => "AuthenticatedActivateUserAction".toList
    | .activateWithOverrideToken .. => "AuthenticatedActivateUserWithOverrideTokenAction".toList
    | .changeEmail .. => "AuthenticatedChangeEmailUserAction".toList
    | .confirmAccount _ => "AuthenticatedNoopUserAction".toList
    | .createTotp .. => "AuthenticatedCreateTOTPFactorUserAction".toList
    | .resetPassword _ => "AuthenticatedResetPasswordUserAction".toList
    | .deleteAccount _ => "AuthenticatedDeleteUserAction".toList
    | .renewDomain .. => "AuthenticatedRenewDomainBasicUserAction".toList

/-- The actions that `IsActiveUser` is not required for. -/
def Action.isActivation : Action → Bool
  | .activate .. | .activateWithOverrideToken .. => true
  | _ => false

/-- The subclasses of `AuthenticatedUserAction`. -/
def Action.isUserAction : Action → Bool
  | .changeOutreachPreference .. | .confirmAccount _ | .renewDomain .. => false
  | _ => true

section Tables

variable {Hash : Type} (s : Store Hash)

def Store.findUser (id : Nat) : Option User := s.users.find? fun user => user.id = id

def Store.findFactor (id : Nat) : Option Factor := s.factors.find? fun factor => factor.id = id

def Store.findToken (id : Nat) : Option Token := s.tokens.find? fun token => token.id = id

def Store.findDomain (id : Nat) : Option Domain := s.domains.find? fun domain => domain.id = id

/-- `User.mfa_enabled` -/
def Store.mfaEnabled (user : Nat) : Bool :=
  s.factors.any fun factor => factor.user = user && factor.totp.lastUsed.isSome

/-- `domains.exists()` -/
def Store.ownsDomains (user : Nat) : Bool := s.domains.any fun domain => domain.owner = user

/-- Whether the user can authenticate. -/
def Store.active (user : Nat) : Bool := (s.findUser user).any fun row => row.isActive = some true

def Store.findEmail {Hash : Type} (env : Environment Hash) (s : Store Hash) (email : Text) :
    Option User :=
  s.users.find? fun user => env.collation user.email = env.collation email

def Store.now {Hash : Type} (env : Environment Hash) (s : Store Hash) : Nat := env.clock s.calls

/-- `timezone.now()` has been called. -/
def Store.tick : Store Hash := { s with calls := s.calls + 1 }

end Tables

section State

variable {Hash : Type} (env : Environment Hash)

/-- `AuthenticatedBasicUserAction._state_fields` -/
def basicFields (action : Action) (user : User) : List Value :=
  [.text action.name, .text (env.uuid user.id)]

/-- `AuthenticatedEmailUserAction._state_fields` -/
def emailFields (action : Action) (user : User) : List Value :=
  basicFields env action user ++ [.text user.email]

/-- `AuthenticatedUserAction._state_fields` -/
def userFields (action : Action) (user : User) : List Value :=
  basicFields env action user ++
    [.text (env.isoformat user.credentialsChanged), user.isActive.elim .null .bool]

/-- `AuthenticatedDomainBasicUserAction._state_fields` -/
def domainFields (action : Action) (user : User) (domain : Domain) : List Value :=
  basicFields env action user ++
    [.text (ofInt domain.id), .text domain.name, .text (env.uuid domain.owner)]

/-- What the state of an activation says about the token. A `timedelta` is not
JSON-serializable. -/
def tokenFields (token : Token) : Option (List Value) :=
  if token.maxAge.isNone && token.maxUnusedPeriod.isNone then
    some [.text (env.uuid token.id), .text (env.uuid token.userId),
      token.userOverride.elim .null fun user => .text (env.uuid user), .text token.name,
      .bool token.permCreateDomain, .bool token.permDeleteDomain, .bool token.autoPolicy,
      .null, .null]
  else none

/-- `_state_fields`, where the rows are there and the values JSON-serializable. -/
def stateFields (s : Store Hash) (action : Action) : Option (List Value) :=
  (s.findUser action.user).bind fun user =>
    match action with
    | .changeOutreachPreference .. => some (emailFields env action user)
    | .activate _ domain => some (userFields env action user ++ [domain.elim .null .text])
    | .activateWithOverrideToken _ token =>
      (s.findToken token).bind fun token =>
        (tokenFields env token).map fun fields => userFields env action user ++ fields
    | .changeEmail _ newEmail => some (userFields env action user ++ [.text newEmail])
    | .confirmAccount _ => some (basicFields env action user)
    | .createTotp .. | .resetPassword _ | .deleteAccount _ => some (userFields env action user)
    | .renewDomain _ domain =>
      (s.findDomain domain).map fun domain =>
        domainFields env action user domain ++ [.text (env.str domain.renewalChanged)]

/-- `AuthenticatedAction.state_of` -/
def Environment.stateOf (fields : List Value) : Hash := env.sha256 (dumps fields)

/-- `AuthenticatedAction.state` -/
def state (s : Store Hash) (action : Action) : Option Hash :=
  (stateFields env s action).map env.stateOf

/-- `validate_state`, for the action that is built from a code. -/
def validates [DecidableEq Hash] (s : Store Hash) (code : Code Hash) : Bool :=
  state env s code.action = some code.state

/-- `build_and_save`: the code goes out by email. -/
def issue (action : Action) (s : Store Hash) : Store Hash :=
  match state env s action with
  | some hash => { s with issued := s.issued ++ [⟨action, hash⟩] }
  | none => s

/-- The same for a code that an operator mails. -/
def mail (action : Action) (s : Store Hash) : Store Hash :=
  match state env s action with
  | some hash => { s with mailed := s.mailed ++ [⟨action, hash⟩] }
  | none => s

end State

section Saves

variable {Hash : Type} (env : Environment Hash)

/-- `User.save`, with a change of some columns. -/
def saveUser (id : Nat) (change : User → User) (s : Store Hash) : Store Hash :=
  { s with users := s.users.map fun user => if user.id = id then change user else user }

/-- `User.save`, with a change of credentials. -/
def changeCredentials (id : Nat) (change : User → User) (s : Store Hash) : Store Hash :=
  saveUser id (fun user => { change user with credentialsChanged := s.now env }) s.tick

/-- `User.activate` -/
def activate (id : Nat) (s : Store Hash) : Store Hash :=
  saveUser id (fun user => { user with isActive := some true, needsCaptcha := false }) s

/-- `User.change_email`, where `validate_unique` does not raise. -/
def changeEmail (id : Nat) (email : Text) (s : Store Hash) : Option (Store Hash) :=
  if s.users.any fun user => user.id ≠ id && env.collation user.email = env.collation email then
    none
  else some (changeCredentials env id (fun user => { user with email }) s)

/-- `User.change_password` -/
def changePassword (id : Nat) (rawPassword : Text) (s : Store Hash) : Store Hash :=
  changeCredentials env id (fun user => { user with password := some rawPassword }) s

/-- Users go, with their factors and tokens. -/
def removeUsers (gone : Nat → Bool) (s : Store Hash) : Store Hash :=
  { s with
    users := s.users.filter fun user => !gone user.id
    factors := s.factors.filter fun factor => !gone factor.user
    tokens := s.tokens.filter fun token => !(gone token.owner || token.userOverride.any gone) }

/-- `User.delete`, where the user has no domains. -/
def deleteUser (id : Nat) (s : Store Hash) : Option (Store Hash) :=
  if s.ownsDomains id then none else some (removeUsers (· = id) s)

/-- `create_user` for a registration that requires activation. -/
def createUser (email : Text) (password : Option Text) (needsCaptcha outreachPreference : Bool)
    (s : Store Hash) : Store Hash :=
  { s with
    users := s.users ++ [{
      id := s.nextId, email := env.normalizeEmail email, password, isActive := none
      created := s.now env, credentialsChanged := s.tick.now env, lastLogin := none
      needsCaptcha, outreachPreference }]
    nextId := s.nextId + 1
    calls := s.calls + 2 }

/-- `super().save()` of `BaseFactor.save`: the row is updated, or inserted. -/
def putFactor (factor : Factor) (factors : List Factor) : List Factor :=
  if factors.any fun other => other.id = factor.id then
    factors.map fun other => if other.id = factor.id then factor else other
  else factors ++ [factor]

/-- `BaseFactor.save`, where the constraint `unique_user_name` holds. -/
def saveFactor (factor : Factor) (s : Store Hash) : Option (Store Hash) :=
  if s.factors.any fun other =>
      other.id ≠ factor.id && other.user = factor.user && other.name = factor.name then none
  else
    let s' := if s.mfaEnabled factor.user then s else changeCredentials env factor.user id s
    some { s' with factors := putFactor factor s'.factors }

/-- `BaseFactor.delete` -/
def deleteFactor (factor : Factor) (s : Store Hash) : Store Hash :=
  let s' := if factor.totp.lastUsed.isSome then changeCredentials env factor.user id s else s
  { s' with factors := s'.factors.filter fun other => other.id ≠ factor.id }

/-- A new factor, as `save` inserts it. -/
def createFactor (user : Nat) (name : Text) (s : Store Hash) : Option (Store Hash) :=
  saveFactor env ⟨s.nextId, user, name, ⟨none, 0⟩⟩ { s with nextId := s.nextId + 1 }

/-- `TOTPFactor.verify`, where it succeeds. Timesteps are counted in seconds. -/
def verify (factor : Factor) (code : Text) (s : Store Hash) : Option (Store Hash) :=
  (matchTimestep (env.generateOtp factor.id) factor.totp code (s.now env / 1000000)).bind
    fun timestep => saveFactor env { factor with totp := ⟨some (s.now env), timestep⟩ } s.tick

/-- `Token.save` of a row that is there: `clean`, the constraint, and the trigger on
`user_override`. Whether the policies of the token admit it, is another matter. -/
def saveToken (policiesAdmit : Bool) (token : Token) (s : Store Hash) : Option (Store Hash) :=
  if policiesAdmit && decide token.userOverrideConditions &&
      s.tokens.all fun old =>
        old.id ≠ token.id || old.userOverride.isNone || old.userOverride = token.userOverride then
    some { s with tokens := s.tokens.map fun old => if old.id = token.id then token else old }
  else none

/-- `Domain.save` of a new row. -/
def createDomain (name : Text) (owner : Nat) (isLocallyRegistrable : Bool) (s : Store Hash) :
    Store Hash :=
  { s.tick with
    domains := s.domains ++
      [Domains.Renewal.newDomain s.nextId name owner (s.now env) isLocallyRegistrable]
    nextId := s.nextId + 1 }

/-- `timezone.now()` goes to a domain row. -/
def stampDomain (id : Nat) (change : Nat → Domain → Domain) (s : Store Hash) : Store Hash :=
  { s.tick with domains := Domains.Renewal.updated id (change (s.now env)) s.domains }

end Saves

/-- What becomes of a domain that is to be created on activation. One that is locally registrable
is then delegated to, unless that raises. -/
inductive DomainOutcome where
  | unavailable
  | raises
  | created (isLocallyRegistrable delegated : Bool)
  deriving DecidableEq

/-- What comes with a code when it is redeemed: whether it has expired by then, whether a captcha
is given and solved, the other data of the request, and what the token's policies and the domain
checks have to say. -/
structure Redemption where
  expired : Bool
  captcha : Option Bool
  outreachPreference : Bool
  newPassword : Text
  policiesAdmit : Bool
  domain : DomainOutcome

section Acts

variable {Hash : Type} (env : Environment Hash)

/-- What is left behind, and whether no exception was raised. -/
abbrev Outcome (Hash : Type) := Store Hash × Bool

/-- A call that either returns or raises with nothing changed. -/
def atomically (s : Store Hash) (result : Option (Store Hash)) : Outcome Hash :=
  match result with
  | some s' => (s', true)
  | none => (s, false)

/-- `_act` of the several classes. -/
def act (action : Action) (r : Redemption) (s : Store Hash) : Outcome Hash :=
  match action with
  | .changeOutreachPreference user outreachPreference =>
    (saveUser user (fun row => { row with outreachPreference }) s, true)
  | .activate user _ => (activate user s, true)
  | .activateWithOverrideToken user token =>
    let activated := activate user
      (saveUser user (fun row => { row with outreachPreference := r.outreachPreference }) s)
    atomically activated <| (activated.findToken token).bind fun row =>
      saveToken r.policiesAdmit { row with userOverride := some user } activated
  | .changeEmail user newEmail => atomically s (changeEmail env user newEmail s)
  | .confirmAccount _ => (s, true)
  | .createTotp user name => atomically s (createFactor env user name s)
  | .resetPassword user => (changePassword env user r.newPassword s, true)
  | .deleteAccount user => atomically s (deleteUser user s)
  | .renewDomain _ domain => (stampDomain env domain Domains.Renewal.Domain.redeemed s, true)

end Acts

end DesecStack.Accounts.Actions
