/- module: DesecStack/Tokens/Policies
   source: api/desecapi/models/tokens.py, api/desecapi/permissions.py
   digest: Tokens and their policies, the policy in effect for an RRset, and what it permits. -/

import DesecStack.Changes.Models
import Mathlib.Data.List.MinMax

set_option autoImplicit false
set_option relaxedAutoImplicit false

namespace DesecStack.Tokens.Policies

open Library.PyText (Text)
open Changes.Models (Item)

/-- A token row; users are given by numbers. -/
structure Token where
  id : Nat
  owner : Nat
  userOverride : Option Nat
  mfa : Option Bool
  permCreateDomain : Bool
  permDeleteDomain : Bool
  permManageTokens : Bool
  autoPolicy : Bool
  deriving DecidableEq

/-- `Coalesce("user_override", "owner")` -/
def Token.userId (token : Token) : Nat := token.userOverride.getD token.owner

/-- The constraint `user_override_conditions`. -/
def Token.userOverrideConditions (token : Token) : Prop :=
  token.userOverride = none ∨ token.permManageTokens = false ∧ token.mfa = none ∧
    token.userOverride ≠ some token.owner

instance (token : Token) : Decidable token.userOverrideConditions :=
  inferInstanceAs (Decidable (_ ∨ _))

/-- A policy row; domains are given by their names. -/
structure TokenDomainPolicy where
  id : Nat
  token : Nat
  domain : Option Text
  subname : Option Text
  type : Option Text
  permWrite : Bool
  deriving DecidableEq

/-- An RRset as `get_policy` sees it: its domain, type and subname. -/
abbrev RRsetKey := Text × Item

/-- The domain, subname and type of a policy. -/
def TokenDomainPolicy.scope (policy : TokenDomainPolicy) :
    Option Text × Option Text × Option Text :=
  (policy.domain, policy.subname, policy.type)

/-- `represents_default_policy` -/
def TokenDomainPolicy.representsDefaultPolicy (policy : TokenDomainPolicy) : Bool :=
  policy.scope = (none, none, none)

/-- The filter of `get_policy`. -/
def TokenDomainPolicy.covers (rrset : Option RRsetKey) (policy : TokenDomainPolicy) : Bool :=
  (policy.domain = rrset.map (·.1) || policy.domain = none) &&
    (policy.subname = rrset.map (·.2.2) || policy.subname = none) &&
    (policy.type = rrset.map (·.2.1) || policy.type = none)

/-- The position in the order of `get_policy`, by domain, subname and type, with nulls last.
Policies that cover the same RRset differ in nulls only. -/
def TokenDomainPolicy.rank (policy : TokenDomainPolicy) : Nat :=
  (if policy.domain.isNone then 4 else 0) + (if policy.subname.isNone then 2 else 0) +
    (if policy.type.isNone then 1 else 0)

/-- `get_policy` of a token with the given policies. -/
def getPolicy (policies : List TokenDomainPolicy) (rrset : Option RRsetKey) :
    Option TokenDomainPolicy :=
  (policies.filter (TokenDomainPolicy.covers rrset)).argmin TokenDomainPolicy.rank

/-- `TokenHasRRsetPermission` -/
def tokenHasRRsetPermission (policies : List TokenDomainPolicy) (rrset : RRsetKey) : Bool :=
  match getPolicy policies (some rrset) with
  | none => true
  | some policy => policy.permWrite

/-- `IsAPIToken` -/
def isAPIToken (token : Token) : Bool := token.mfa = none

/-- `MFARequiredIfEnabled` -/
def mfaRequiredIfEnabled (token : Token) (mfaEnabled : Bool) : Bool :=
  token.mfa = some true || (token.mfa = some false && !mfaEnabled)

end DesecStack.Tokens.Policies
