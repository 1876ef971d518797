/- module: DesecStack/Tokens/Store
   source: api/desecapi/models/tokens.py, api/desecapi/views/domains.py
   digest: The tables of tokens, policies and domains, with the writes that the models allow. -/

import DesecStack.Library.Runs
import DesecStack.Tokens.Policies

set_option autoImplicit false
set_option relaxedAutoImplicit false

namespace DesecStack.Tokens.Store

open Library.PyText (Text)
open Policies

/-- The tables. A domain is given by its name and its owner. -/
structure Tables where
  tokens : List Token
  policies : List TokenDomainPolicy
  domains : List (Text × Nat)

inductive Operation where
  | createToken (token : Token) (policyId : Nat)
  | saveToken (token : Token) (policyId : Nat)
  | createPolicy (policy : TokenDomainPolicy)
  | savePolicy (policy : TokenDomainPolicy)
  | deletePolicy (id : Nat)
  | createDomain (name : Text) (auth : Nat) (policyId : Nat)
  | deleteDomain (name : Text)
  | deleteToken (id : Nat)

section Constraints

variable (store : Tables)

/-- `tokendomainpolicy_set` -/
def policySet (id : Nat) : List TokenDomainPolicy :=
  store.policies.filter fun policy => policy.token = id

def findToken (id : Nat) : Option Token := store.tokens.find? fun token => token.id = id

def findPolicy (id : Nat) : Option TokenDomainPolicy :=
  store.policies.find? fun policy => policy.id = id

/-- The constraint `unique_policy`, in which nulls are not distinct. -/
def uniquePolicy : Bool :=
  decide ((store.policies.map fun policy => (policy.token, policy.scope)).Nodup)

/-- Policies belong to a token, and their domain to the user of the token. -/
def foreignKeys : Bool :=
  store.policies.all fun policy => store.tokens.any fun token =>
    token.id = policy.token &&
      policy.domain.all fun name => store.domains.contains (name, token.userId)

/-- The trigger `default_policy_primacy` for a policy of a token. -/
def defaultPolicyPrimacy (id : Nat) : Bool :=
  (policySet store id).isEmpty ||
    (policySet store id).any TokenDomainPolicy.representsDefaultPolicy

/-- The trigger `token_auto_policy` -/
def tokenAutoPolicy (token : Token) : Bool :=
  !token.autoPolicy || (policySet store token.id).any TokenDomainPolicy.representsDefaultPolicy

/-- The trigger `default_policy_when_auto_policy` for a deleted policy. -/
def defaultPolicyWhenAutoPolicy (old : TokenDomainPolicy) : Bool :=
  !(old.representsDefaultPolicy && (findToken store old.token).any Token.autoPolicy)

/-- `Token.clean` -/
def Token.clean (token : Token) : Bool :=
  !(token.permManageTokens && token.userOverride.isSome) &&
    (!token.autoPolicy ||
      !(getPolicy (policySet store token.id) none).any TokenDomainPolicy.permWrite)

/-- `is_default_policy`, by the primary key -/
def isDefaultPolicy (policy : TokenDomainPolicy) : Bool :=
  (getPolicy (policySet store policy.token) none).any fun default => default.id = policy.id

/-- `TokenDomainPolicy.save` of a new policy -/
def insertPolicy (policy : TokenDomainPolicy) : Option Tables :=
  let inserted := { store with policies := store.policies ++ [policy] }
  if ((getPolicy (policySet store policy.token) none).isSome || policy.representsDefaultPolicy) &&
      (findPolicy store policy.id).isNone && uniquePolicy inserted && foreignKeys inserted &&
      defaultPolicyPrimacy inserted policy.token then
    some inserted
  else none

/-- `TokenDomainPolicy.save` of a policy that is there. The view looks it up among the policies
of the token in the path, and the serializer writes that token again. -/
def updatePolicy (policy : TokenDomainPolicy) : Option Tables := do
  let _ ← (policySet store policy.token).find? fun old => old.id = policy.id
  let token ← findToken store policy.token
  let updated := { store with
    policies := store.policies.map fun other => if other.id = policy.id then policy else other }
  if isDefaultPolicy store policy = policy.representsDefaultPolicy &&
      !(policy.permWrite && isDefaultPolicy store policy && token.autoPolicy) &&
      uniquePolicy updated && foreignKeys updated && defaultPolicyPrimacy updated policy.token then
    some updated
  else none

/-- `TokenDomainPolicy.delete` -/
def deletePolicy (id : Nat) : Option Tables := do
  let policy ← findPolicy store id
  let token ← findToken store policy.token
  let deleted := { store with policies := store.policies.filter fun other => other.id ≠ id }
  if !(isDefaultPolicy store policy &&
        (policySet store policy.token).any fun other => other.id ≠ policy.id) &&
      !(isDefaultPolicy store policy && token.autoPolicy) &&
      defaultPolicyPrimacy deleted policy.token && defaultPolicyWhenAutoPolicy deleted policy then
    some deleted
  else none

/-- The end of `Token.save`, where a token may need a default policy. -/
def ensureDefault (token : Token) (policyId : Nat) : Option Tables := do
  let ensured ← (if token.autoPolicy && (getPolicy (policySet store token.id) none).isNone then
    insertPolicy store ⟨policyId, token.id, none, none, none, false⟩ else some store)
  if tokenAutoPolicy ensured token then some ensured else none

/-- `Token.save` of a new token -/
def insertToken (token : Token) (policyId : Nat) : Option Tables :=
  let inserted := { store with tokens := store.tokens ++ [token] }
  if Token.clean store token && (findToken store token.id).isNone &&
      decide token.userOverrideConditions then
    ensureDefault inserted token policyId
  else none

/-- `Token.save` of a token that is there, with the trigger `token_policy_user_id`. -/
def updateToken (token : Token) (policyId : Nat) : Option Tables := do
  let old ← findToken store token.id
  let updated := { store with
    tokens := store.tokens.map fun other => if other.id = token.id then token else other }
  if Token.clean store token && decide token.userOverrideConditions &&
      (token.userId = old.userId || old.userOverride.isNone) && foreignKeys updated then
    ensureDefault updated token policyId
  else none

/-- The creation of a domain, with `auto_policy` of the token that is used for it. -/
def insertDomain (name : Text) (auth : Nat) (policyId : Nat) : Option Tables := do
  let token ← findToken store auth
  let inserted := { store with domains := store.domains ++ [(name, token.userId)] }
  if store.domains.any fun domain => domain.1 = name then none
  else if token.autoPolicy then
    insertPolicy inserted ⟨policyId, token.id, some name, none, none, true⟩
  else some inserted

/-- The deletion of a domain, which takes its policies along without their `delete`. -/
def deleteDomain (name : Text) : Option Tables :=
  let deleted := { store with
    policies := store.policies.filter fun policy => policy.domain ≠ some name
    domains := store.domains.filter fun domain => domain.1 ≠ name }
  if store.policies.all fun policy => policy.domain ≠ some name ||
      defaultPolicyPrimacy deleted policy.token && defaultPolicyWhenAutoPolicy deleted policy then
    some deleted
  else none

/-- The deletion of a token, which takes its policies along without their `delete`. -/
def deleteToken (id : Nat) : Option Tables :=
  let deleted := { store with
    tokens := store.tokens.filter fun token => token.id ≠ id
    policies := store.policies.filter fun policy => policy.token ≠ id }
  if store.policies.all fun policy => policy.token ≠ id ||
      defaultPolicyPrimacy deleted policy.token && defaultPolicyWhenAutoPolicy deleted policy then
    some deleted
  else none

/-- One operation; `none` is a rejection, with everything rolled back. -/
def perform : Operation → Option Tables
  | .createToken token policyId => insertToken store token policyId
  | .saveToken token policyId => updateToken store token policyId
  | .createPolicy policy => insertPolicy store policy
  | .savePolicy policy => updatePolicy store policy
  | .deletePolicy id => deletePolicy store id
  | .createDomain name auth policyId => insertDomain store name auth policyId
  | .deleteDomain name => deleteDomain store name
  | .deleteToken id => deleteToken store id

end Constraints

/-- The state after a sequence of operations, from empty tables. -/
def reached (operations : List Operation) : Tables :=
  operations.foldl (Library.Runs.attempt perform) ⟨[], [], []⟩

end DesecStack.Tokens.Store
