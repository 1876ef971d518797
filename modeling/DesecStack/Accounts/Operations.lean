/- module: DesecStack/Accounts/Operations
   source: api/desecapi/views/users.py, api/desecapi/views/authenticated_actions.py,
     api/desecapi/views/mfa.py, api/desecapi/views/tokens.py, api/desecapi/views/domains.py,
     api/desecapi/authentication.py, api/desecapi/management/commands
   digest: The account operations, the redemption of verification codes, and runs of them. -/

import DesecStack.Accounts.Actions

set_option autoImplicit false
set_option relaxedAutoImplicit false

namespace DesecStack.Accounts.Operations

open Library.PyText (Text)
open Domains.Scavenge (RenewalState)
open Domains.Renewal (updated)
open Actions

section Redemptions

variable {Hash : Type} [DecidableEq Hash] (env : Environment Hash)

/-- `captcha` of `AuthenticatedActivateUserActionSerializer`. -/
def captchaAdmits (r : Redemption) (user : User) : Bool := r.captcha.getD !user.needsCaptcha

/-- `is_valid` of the serializers. -/
def isValid (s : Store Hash) (r : Redemption) (user : User) : Action → Bool
  | .activate _ domain =>
    captchaAdmits r user && domain.all fun name => name ≠ [] && name.length ≤ 191
  | .activateWithOverrideToken _ token => captchaAdmits r user && (s.findToken token).isSome
  | .changeEmail _ newEmail => newEmail ≠ [] && (s.findEmail env newEmail).isNone
  | .createTotp _ name => name.length ≤ 64
  | .resetPassword _ => r.newPassword ≠ []
  | .renewDomain _ domain => (s.findDomain domain).isSome
  | _ => true

/-- A token row is inserted. -/
def insertToken (owner : Nat) (name : Text) (mfa : Option Bool)
    (permCreateDomain permDeleteDomain permManageTokens autoPolicy : Bool)
    (maxAge maxUnusedPeriod : Option Nat) (s : Store Hash) : Store Hash :=
  { s.tick with
    tokens := s.tokens ++ [{
      id := s.nextId, owner, userOverride := none, mfa, permCreateDomain, permDeleteDomain
      permManageTokens, autoPolicy, name, created := s.now env, lastUsed := none, maxAge
      maxUnusedPeriod }]
    nextId := s.nextId + 1 }

/-- `AuthenticatedActivateUserActionView.post`, after `act`. -/
def finalize (user : Nat) (domain : Option Text) (r : Redemption) (s : Store Hash) : Store Hash :=
  match domain with
  | none =>
    if (s.findUser user).any (·.password.isNone) then issue env (.resetPassword user) s else s
  | some name =>
    match r.domain with
    | .unavailable => (deleteUser user s).getD s
    | .raises => s
    | .created isLocallyRegistrable delegated =>
      let s' := createDomain env name user isLocallyRegistrable s
      if isLocallyRegistrable && delegated then
        insertToken env user "dyndns".toList none false false false false none none s'
      else s'

/-- `act`, for an action that is built from a code, and what the view does afterwards. -/
def perform (code : Code Hash) (r : Redemption) (s : Store Hash) : Store Hash :=
  match act env code.action r s with
  | (s', false) => s'
  | (s', true) =>
    let done := { s' with redeemed := s'.redeemed ++ [code] }
    match code.action with
    | .activate user domain => finalize env user domain r done
    | _ => done

/-- `POST` to an `AuthenticatedActionView`: authentication, `IsActiveUser`, the check that the
domains of the user are gone, the serializer, and the state. -/
def redeem (code : Code Hash) (r : Redemption) (s : Store Hash) : Store Hash :=
  match s.findUser code.action.user with
  | none => s
  | some user =>
    if !r.expired && user.isActive ≠ some false &&
        (code.action.isActivation || user.isActive = some true) &&
        !(code.action = .deleteAccount user.id && s.ownsDomains user.id) &&
        isValid env s r user code.action && validates env s code then
      perform env code r s
    else s

end Redemptions

section Views

variable {Hash : Type} (env : Environment Hash)

/-- `AccountCreateView.create`, where the other fields are valid. -/
def register (email : Text) (password : Option Text) (captcha outreachPreference : Bool)
    (domain : Option Text) (s : Store Hash) : Store Hash :=
  if (s.findEmail env email).isSome || domain = some [] then s
  else
    issue env (.activate s.nextId domain)
      (createUser env email password (!captcha) outreachPreference s)

/-- `is_valid` -/
def isValidToken (now : Nat) (token : Token) : Bool :=
  token.maxAge.all (fun maxAge => now ≤ token.created + maxAge) &&
    token.maxUnusedPeriod.all fun period => now ≤ token.lastUsed.getD token.created + period

/-- `AccountLoginView.post` -/
def login (user : Nat) (s : Store Hash) : Store Hash :=
  let cleaned := { s.tick with
    tokens := s.tokens.filter fun token =>
      !(token.owner = user && token.userOverride.isNone && token.mfa.isSome &&
        !isValidToken (s.now env) token) }
  let logged := insertToken env user [] (some false) true true true false
    (some (7 * 86400000000)) (some 3600000000) cleaned
  saveUser user (fun row => { row with lastLogin := some (logged.now env) }) logged.tick

def removeToken (id : Nat) (s : Store Hash) : Store Hash :=
  { s with tokens := s.tokens.filter fun token => token.id ≠ id }

/-- `TokenAuthentication.authenticate_credentials`, where it succeeds. -/
def useToken (id : Nat) (s : Store Hash) : Store Hash :=
  { s.tick with
    tokens := s.tokens.map fun token =>
      if token.id = id then { token with lastUsed := some (s.now env) } else token }

/-- `AccountDeleteView.post` -/
def requestDeletion (user : Nat) (s : Store Hash) : Store Hash :=
  if s.ownsDomains user then s else issue env (.deleteAccount user) s

/-- `AccountChangeEmailView.post` -/
def requestEmailChange (user : Nat) (newEmail : Text) (s : Store Hash) : Store Hash :=
  if (s.findUser user).any (·.email = newEmail) || newEmail = [] then s
  else issue env (.changeEmail user newEmail) s

/-- `AccountResetPasswordView.post` -/
def requestPasswordReset (email : Text) (s : Store Hash) : Store Hash :=
  match s.findEmail env email with
  | some user => if user.isActive = some true then issue env (.resetPassword user.id) s else s
  | none => s

/-- `TOTPViewSet.create` -/
def requestFactor (user : Nat) (name : Text) (s : Store Hash) : Store Hash :=
  if s.factors.any fun factor => factor.user = user && factor.name = name then s
  else if s.mfaEnabled user then (createFactor env user name s).getD s
  else issue env (.createTotp user name) s

/-- `TOTPViewSet.update` -/
def renameFactor (id : Nat) (name : Text) (s : Store Hash) : Store Hash :=
  ((s.findFactor id).bind fun factor => saveFactor env { factor with name } s).getD s

/-- `TOTPViewSet.destroy` -/
def destroyFactor (id : Nat) (s : Store Hash) : Store Hash :=
  match s.findFactor id with
  | some factor => deleteFactor env factor s
  | none => s

/-- The token of the request passes multi-factor authentication. -/
def stepUp (policiesAdmit : Bool) (id : Nat) (s : Store Hash) : Store Hash :=
  ((s.findToken id).bind fun token =>
    saveToken policiesAdmit { token with mfa := some true } s).getD s

/-- `TOTPViewSet.verify`; the request has no token, or one that is valid. -/
def verifyFactor (id : Nat) (code : Text) (auth : Option Nat) (policiesAdmit : Bool)
    (s : Store Hash) : Store Hash :=
  match s.findFactor id with
  | none => s
  | some factor =>
    let isNew := factor.totp.lastUsed.isNone
    if !isNew && auth.isNone then s
    else match verify env factor code s with
      | none => s.tick
      | some s' => if isNew then s' else auth.elim s' fun token => stepUp policiesAdmit token s'

/-- `TokenViewSet.create` -/
def createToken (owner : Nat) (name : Text)
    (permCreateDomain permDeleteDomain permManageTokens autoPolicy : Bool)
    (maxAge maxUnusedPeriod : Option Nat) (userOverride : Option Text) (s : Store Hash) :
    Store Hash :=
  let inserted := insertToken env owner name none permCreateDomain permDeleteDomain
    permManageTokens autoPolicy maxAge maxUnusedPeriod s
  match userOverride with
  | none => inserted
  | some email =>
    if (s.findEmail env email).isSome then inserted
    else
      issue env (.activateWithOverrideToken inserted.nextId s.nextId)
        (createUser env email none true false inserted)

/-- `TokenViewSet.update` -/
def updateToken (id : Nat) (name : Text)
    (permCreateDomain permDeleteDomain permManageTokens autoPolicy : Bool)
    (maxAge maxUnusedPeriod : Option Nat) (policiesAdmit : Bool) (s : Store Hash) : Store Hash :=
  ((s.findToken id).bind fun token =>
    saveToken policiesAdmit { token with
      name, permCreateDomain, permDeleteDomain, permManageTokens, autoPolicy, maxAge
      maxUnusedPeriod } s).getD s

def deleteDomain (id : Nat) (s : Store Hash) : Store Hash :=
  { s with domains := s.domains.filter fun domain => domain.id ≠ id }

end Views

section Commands

variable {Hash : Type} (env : Environment Hash)

/-- `delete_never_activated_users` -/
def deleteNeverActivatedUsers (s : Store Hash) : Store Hash :=
  let gone (id : Nat) : Bool := s.users.any fun user =>
    user.id = id && user.isActive.isNone && user.lastLogin.isNone &&
      user.created + env.validityPeriod < s.now env
  if s.domains.any fun domain => gone domain.owner then s.tick else removeUsers gone s.tick

/-- `stop-abuse` -/
def stopAbuse (names : List Text) (s : Store Hash) : Store Hash :=
  { s with
    users := s.users.map fun user =>
      if (s.domains.any fun domain => domain.owner = user.id && names.contains domain.name) ||
          names.any (fun name => env.collation name = env.collation user.email) then
        { user with isActive := some false }
      else user }

/-- `renew_touched_domains` -/
def renewTouchedDomains (s : Store Hash) : Store Hash :=
  { s.tick with
    domains := Domains.Scavenge.renewTouchedDomains s.active (s.now env) s.domains }

/-- `warn_domain_deletion`: the emails have a code for each domain. -/
def warnDomainDeletion (renewalState : RenewalState) (inactiveDays : Nat) (s : Store Hash) :
    Store Hash :=
  (s.domains.filter (Domains.Scavenge.expiryCandidate s.active (s.now env) renewalState
      inactiveDays)).foldl
    (fun s domain => issue env (.renewDomain domain.owner domain.id)
      (stampDomain env domain.id
        (fun now row => { row with renewalState := row.renewalState.next, renewalChanged := now })
        s))
    s.tick

/-- `delete_domains` -/
def deleteDomains (inactiveDays : Nat) (s : Store Hash) : Store Hash :=
  (s.domains.filter (Domains.Scavenge.expired s.active (s.now env) inactiveDays)).foldl
    (fun s domain =>
      let s' := deleteDomain domain.id s
      (deleteUser domain.owner s').getD s')
    s.tick

/-- `scavenge-unused` -/
def scavenge (s : Store Hash) : Store Hash :=
  let renewed := renewTouchedDomains env s
  let notified := warnDomainDeletion env .fresh Domains.Scavenge.freshDays renewed
  let warned := warnDomainDeletion env .notified
    (Domains.Scavenge.noticeDaysNotify - Domains.Scavenge.noticeDaysWarn) notified
  deleteDomains env (Domains.Scavenge.freshDays + Domains.Scavenge.noticeDaysNotify) warned

/-- The reasons for which `outreach-email` can mail a code. -/
inductive Reason where
  | changeOutreachPreference
  | activateAccount
  | changeEmail
  | confirmAccount
  | createTotp
  | resetPassword
  | deleteAccount
  deriving DecidableEq

/-- `serializer_class.Meta.model(user=user)`: the other fields have their defaults. -/
def Reason.action (user : Nat) : Reason → Action
  | .changeOutreachPreference => .changeOutreachPreference user false
  | .activateAccount => .activate user (some [])
  | .changeEmail => .changeEmail user []
  | .confirmAccount => .confirmAccount user
  | .createTotp => .createTotp user []
  | .resetPassword => .resetPassword user
  | .deleteAccount => .deleteAccount user

/-- `outreach-email`, to the addresses given or to all who want it. -/
def outreachEmail (reason : Reason) (emails : List Text) (s : Store Hash) : Store Hash :=
  (s.users.filter fun user =>
      if emails.isEmpty then user.outreachPreference && user.isActive ≠ some false
      else emails.any fun email => env.collation email = env.collation user.email).foldl
    (fun s user => mail env (reason.action user.id) s) s

end Commands

/-- The requests to account views, the redemptions, and the commands. Which tokens, policies and
captchas admit a request, is another matter. -/
inductive Operation (Hash : Type) where
  | register (email : Text) (password : Option Text) (captcha outreachPreference : Bool)
      (domain : Option Text)
  | login (user : Nat)
  | useToken (token : Nat)
  | updateAccount (user : Nat) (outreachPreference : Bool)
  | requestDeletion (user : Nat)
  | requestEmailChange (user : Nat) (newEmail : Text)
  | requestPasswordReset (email : Text)
  | requestFactor (user : Nat) (name : Text)
  | renameFactor (factor : Nat) (name : Text)
  | destroyFactor (factor : Nat)
  | verifyFactor (factor : Nat) (code : Text) (auth : Option Nat) (policiesAdmit : Bool)
  | createToken (owner : Nat) (name : Text)
      (permCreateDomain permDeleteDomain permManageTokens autoPolicy : Bool)
      (maxAge maxUnusedPeriod : Option Nat) (userOverride : Option Text)
  | updateToken (token : Nat) (name : Text)
      (permCreateDomain permDeleteDomain permManageTokens autoPolicy : Bool)
      (maxAge maxUnusedPeriod : Option Nat) (policiesAdmit : Bool)
  | removeToken (token : Nat)
  | createDomain (name : Text) (owner : Nat) (isLocallyRegistrable : Bool)
  | deleteDomain (domain : Nat)
  | writeRRset (domain : Nat) (replaced : Option Nat)
  | deleteRRset (domain touched : Nat)
  | publish (domain : Nat)
  | redeem (code : Code Hash) (redemption : Redemption)
  | chores
  | stopAbuse (names : List Text)
  | scavenge
  | outreachEmail (reason : Reason) (emails : List Text)

section Runs

variable {Hash : Type} [DecidableEq Hash] (env : Environment Hash)

/-- Users act when they are active. Codes are what the program has sent. -/
def step (s : Store Hash) : Operation Hash → Store Hash
  | .register email password captcha outreachPreference domain =>
    register env email password captcha outreachPreference domain s
  | .login user => if s.active user then login env user s else s
  | .useToken token => useToken env token s
  | .updateAccount user outreachPreference =>
    if s.active user then saveUser user (fun row => { row with outreachPreference }) s else s
  | .requestDeletion user => if s.active user then requestDeletion env user s else s
  | .requestEmailChange user newEmail =>
    if s.active user then requestEmailChange env user newEmail s else s
  | .requestPasswordReset email => requestPasswordReset env email s
  | .requestFactor user name => if s.active user then requestFactor env user name s else s
  | .renameFactor factor name => renameFactor env factor name s
  | .destroyFactor factor => destroyFactor env factor s
  | .verifyFactor factor code auth policiesAdmit =>
    verifyFactor env factor code auth policiesAdmit s
  | .createToken owner name permCreateDomain permDeleteDomain permManageTokens autoPolicy maxAge
      maxUnusedPeriod userOverride =>
    if s.active owner then
      createToken env owner name permCreateDomain permDeleteDomain permManageTokens autoPolicy
        maxAge maxUnusedPeriod userOverride s
    else s
  | .updateToken token name permCreateDomain permDeleteDomain permManageTokens autoPolicy maxAge
      maxUnusedPeriod policiesAdmit =>
    updateToken token name permCreateDomain permDeleteDomain permManageTokens autoPolicy maxAge
      maxUnusedPeriod policiesAdmit s
  | .removeToken token => removeToken token s
  | .createDomain name owner isLocallyRegistrable =>
    if s.active owner then createDomain env name owner isLocallyRegistrable s else s
  | .deleteDomain domain => deleteDomain domain s
  | .writeRRset domain replaced =>
    stampDomain env domain (fun now => Domains.Renewal.Domain.written now replaced) s
  | .deleteRRset domain touched =>
    stampDomain env domain (fun now => Domains.Renewal.Domain.unwritten now touched) s
  | .publish domain => stampDomain env domain Domains.Renewal.Domain.publishedAt s
  | .redeem code redemption =>
    if code ∈ s.issued ∨ code ∈ s.mailed then redeem env code redemption s else s
  | .chores => deleteNeverActivatedUsers env s
  | .stopAbuse names => stopAbuse env names s
  | .scavenge => scavenge env s
  | .outreachEmail reason emails => outreachEmail env reason emails s

def run (operations : List (Operation Hash)) (s : Store Hash) : Store Hash :=
  operations.foldl (step env) s

end Runs

end DesecStack.Accounts.Operations
