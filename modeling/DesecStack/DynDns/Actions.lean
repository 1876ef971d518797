/- module: DesecStack/DynDns/Actions
   source: api/desecapi/views/dyndns.py 24-164, the module ipaddress of the Python standard library
   digest: The parameters with addresses in a dynDNS request, and the actions that they ask for. -/

import DesecStack.DynDns.Ipaddress
import DesecStack.Library.Raising

set_option autoImplicit false
set_option relaxedAutoImplicit false

namespace DesecStack.DynDns.Actions

open Library.PyText (Text split strip)
open Library.Raising
open Ipaddress

/-- The errors that a dynDNS request is answered with; those about a parameter name it. -/
inductive RequestError where
  | domainUnspecified
  | crossDomainUpdate
  | inconsistentParameter (paramKey : Text)
  | multipleSubnet (paramKey : Text)
  | invalidSubnet (paramKey : Text)
  deriving DecidableEq

def RequestError.code : RequestError → Text
  | .domainUnspecified => "domain-unspecified".toList
  | .crossDomainUpdate => "cross-domain-update".toList
  | .inconsistentParameter _ => "inconsistent-parameter".toList
  | .multipleSubnet _ => "multiple-subnet".toList
  | .invalidSubnet _ => "invalid-subnet".toList

/-- The text of an error, up to the reason that `ip_network` gives. -/
def RequestError.detail : RequestError → Text
  | .domainUnspecified => "Request does not properly specify domain for update.".toList
  | .crossDomainUpdate => "Cannot update subdomains from more than one domain.".toList
  | .inconsistentParameter paramKey => "IP parameter \"".toList ++ paramKey ++
      "\" cannot have addresses and \"preserve\" or an empty value at the same time.".toList
  | .multipleSubnet paramKey => "IP parameter \"".toList ++ paramKey ++
      "\" cannot use subnet notation with multiple addresses.".toList
  | .invalidSubnet paramKey => "IP parameter \"".toList ++ paramKey ++
      "\" is an invalid subnet: ".toList

/-- The exceptions that occur. -/
inductive Raised where
  | keyError
  | indexError
  | valueError
  | binasciiError
  | unicodeDecodeError
  | doesNotExist
  | multipleObjectsReturned
  | notFound
  | validationError (error : RequestError)
  deriving DecidableEq

/-- `except ValueError`, with the subclasses. -/
def Raised.isValueError : Raised → Bool
  | .valueError | .binasciiError | .unicodeDecodeError => true
  | _ => false

def Raised.isKeyError (e : Raised) : Bool := e = .keyError

/-- What has an answer: 404 for `NotFound`, 400 for `ValidationError`. -/
def Raised.isAnswered : Raised → Bool
  | .notFound | .validationError _ => true
  | _ => false

/-! ### Networks -/

/-- `_split_optional_netmask`, with the address and the mask if there is one. -/
def splitOptionalNetmask (s : Text) : Except Raised (Text × Option Text) :=
  match split '/' s with
  | [address] => .ok (address, none)
  | [address, mask] => .ok (address, some mask)
  | _ => .error .valueError

/-- `_prefix_from_prefix_string` -/
def prefixFromPrefixString (maxPrefixlen : Nat) (s : Text) : Except Raised Nat :=
  if s = [] ∨ !s.all Char.isDigit then .error .valueError
  else if maxPrefixlen < Nat.ofDigitChars 10 s 0 then .error .valueError
  else .ok (Nat.ofDigitChars 10 s 0)

/-- `_prefix_from_ip_int`: the prefix length of a netmask. -/
def prefixFromIpInt (ip : BitVec 32) : Except Raised Nat :=
  match (List.range 33).find? fun prefixlen => netmask 32 prefixlen = ip with
  | some prefixlen => .ok prefixlen
  | none => .error .valueError

/-- `_prefix_from_ip_string`: a netmask or a hostmask. -/
def prefixFromIpString (s : Text) : Except Raised Nat :=
  match ipv4FromString s with
  | none => .error .valueError
  | some ip => do
    match ← attempt Raised.isValueError (prefixFromIpInt ip) with
    | some prefixlen => pure prefixlen
    | none => prefixFromIpInt (ip ^^^ BitVec.allOnes 32)

/-- `_make_netmask` of IPv4. -/
def makeNetmask (mask : Text) : Except Raised Nat := do
  match ← attempt Raised.isValueError (prefixFromPrefixString 32 mask) with
  | some prefixlen => pure prefixlen
  | none => prefixFromIpString mask

/-- A network of an address, where the length of the prefix is admissible. -/
def networkOf {w : Nat} (ip : BitVec w) (prefixlen : Nat) : Except Raised (Network w) :=
  if le : prefixlen ≤ w then .ok (Network.of ip prefixlen le) else .error .valueError

/-- `IPv4Network(s, strict=False)` -/
def ipv4Network (s : Text) : Except Raised (Network 32) := do
  let (address, mask) ← splitOptionalNetmask s
  match ipv4FromString address with
  | none => throw .valueError
  | some ip => networkOf ip (← mask.elim (pure 32) makeNetmask)

/-- `IPv6Network(s, strict=False)`, without the scope id. -/
def ipv6Network (s : Text) : Except Raised (Network 128) := do
  let (address, mask) ← splitOptionalNetmask s
  match (splitScopeId address).bind fun (address, _) => ipv6FromString address with
  | none => throw .valueError
  | some ip => networkOf ip (← mask.elim (pure 128) (prefixFromPrefixString 128))

/-- `ip_network(s, strict=False)` -/
def ipNetwork (s : Text) : Except Raised IPNetwork := do
  match ← attempt Raised.isValueError (ipv4Network s) with
  | some network => pure (.ipv4 network)
  | none =>
    match ← attempt Raised.isValueError (ipv6Network s) with
    | some network => pure (.ipv6 network)
    | none => throw .valueError

/-! ### Actions -/

/-- `SetIPs`, `UpdateWithSubnet` and `PreserveIPs`. -/
inductive UpdateAction where
  | setIPs (ips : List Text)
  | updateWithSubnet (subnet : IPNetwork)
  | preserveIPs

def preserve : Text := "preserve".toList

/-- The stripped parts of a parameter value that are considered, each once. -/
def considered (paramValue : Text) (separator : Char) : List Text :=
  (((split ',' paramValue).map strip).filter fun param =>
    separator ∈ param || param = [] || param = preserve).dedup

/-- `(param,) = params` -/
def unpackOne (params : List Text) : Except Raised Text :=
  match params with
  | [param] => .ok param
  | _ => .error .valueError

/-- `_get_action_from_param` -/
def getActionFromParam (paramKey paramValue : Text) (separator : Char) :
    Except Raised (Option UpdateAction) :=
  let params := considered paramValue separator
  if params = [] then .ok none
  else do
    match ← attempt Raised.isValueError (unpackOne params) with
    | none =>
      if [] ∈ params ∨ preserve ∈ params then
        throw (.validationError (.inconsistentParameter paramKey))
      else if params.any fun param => '/' ∈ param then
        throw (.validationError (.multipleSubnet paramKey))
      else pure (some (.setIPs params))
    | some param =>
      if param = [] then pure (some (.setIPs []))
      else if param = preserve then pure (some .preserveIPs)
      else if '/' ∈ param then do
        let subnet ← replace Raised.isValueError (.validationError (.invalidSubnet paramKey))
          (ipNetwork param)
        pure (some (.updateWithSubnet subnet))
      else pure (some (.setIPs params))

/-- The query parameters as they come in the URL. -/
abbrev Query := List (Text × Text)

/-- `query_params[key]`, the last value where there are several. -/
def queryParam (query : Query) (key : Text) : Except Raised Text :=
  match query.reverse.lookup key with
  | some value => .ok value
  | none => .error .keyError

/-- The loop of `_find_action` over the keys. -/
def actionFromKeys (query : Query) (separator : Char) :
    List Text → Except Raised (Option UpdateAction)
  | [] => .ok none
  | key :: keys => do
    match ← attempt Raised.isKeyError (queryParam query key) with
    | none => actionFromKeys query separator keys
    | some value =>
      match ← getActionFromParam key value separator with
      | some action => pure (some action)
      | none => actionFromKeys query separator keys

/-- `_find_action` -/
def findAction (query : Query) (remoteAddr : Text) (paramKeys : List Text) (separator : Char) :
    Except Raised UpdateAction := do
  match ← actionFromKeys query separator paramKeys with
  | some action => pure action
  | none => if separator ∈ remoteAddr then pure (.setIPs [remoteAddr]) else pure (.setIPs [])

/-- The keys for IPv4 addresses. -/
def keysA : List Text := ["myip".toList, "myipv4".toList, "ip".toList]

/-- The keys for IPv6 addresses. -/
def keysAAAA : List Text := ["myipv6".toList, "ipv6".toList, "myip".toList, "ip".toList]

/-! ### What may escape -/

/-- Only subclasses of `ValueError` escape. -/
abbrev RaisesValueError {α : Type} (body : Except Raised α) : Prop :=
  Raises (fun e => e.isValueError = true) body

/-- Only what has an answer escapes. -/
abbrev Answered {α : Type} (body : Except Raised α) : Prop :=
  Raises (fun e => e.isAnswered = true) body

section Networks

private theorem raises_splitOptionalNetmask (s : Text) :
    RaisesValueError (splitOptionalNetmask s) := by
  rw [splitOptionalNetmask]
  split
  · exact raises_ok _
  · exact raises_ok _
  · exact raises_error rfl

private theorem raises_prefixFromPrefixString (maxPrefixlen : Nat) (s : Text) :
    RaisesValueError (prefixFromPrefixString maxPrefixlen s) := by
  apply raises_ite
  · exact fun _ => raises_error rfl
  · intro _
    exact raises_ite (fun _ => raises_error rfl) fun _ => raises_ok _

private theorem raises_prefixFromIpInt (ip : BitVec 32) :
    RaisesValueError (prefixFromIpInt ip) := by
  rw [prefixFromIpInt]
  split
  · exact raises_ok _
  · exact raises_error rfl

private theorem raises_prefixFromIpString (s : Text) : RaisesValueError (prefixFromIpString s) := by
  rw [prefixFromIpString]
  split
  · exact raises_error rfl
  · next ip _ =>
    refine (raises_prefixFromIpInt ip).attempt.bind fun found _ => ?_
    cases found with
    | some prefixlen => exact raises_pure prefixlen
    | none => exact raises_prefixFromIpInt _

private theorem raises_makeNetmask (mask : Text) : RaisesValueError (makeNetmask mask) := by
  refine (raises_prefixFromPrefixString 32 mask).attempt.bind fun found _ => ?_
  cases found with
  | some prefixlen => exact raises_pure prefixlen
  | none => exact raises_prefixFromIpString mask

private theorem raises_networkOf {w : Nat} (ip : BitVec w) (prefixlen : Nat) :
    RaisesValueError (networkOf ip prefixlen) := by
  rw [networkOf]
  split
  · exact raises_ok _
  · exact raises_error rfl

theorem raises_ipv4Network (s : Text) : RaisesValueError (ipv4Network s) := by
  refine (raises_splitOptionalNetmask s).bind fun (address, mask) _ => ?_
  dsimp only
  split
  · exact raises_error rfl
  · next ip _ =>
    refine Raises.bind ?_ fun prefixlen _ => raises_networkOf ip prefixlen
    cases mask with
    | none => exact raises_pure _
    | some mask => exact raises_makeNetmask mask

theorem raises_ipv6Network (s : Text) : RaisesValueError (ipv6Network s) := by
  refine (raises_splitOptionalNetmask s).bind fun (address, mask) _ => ?_
  dsimp only
  split
  · exact raises_error rfl
  · next ip _ =>
    refine Raises.bind ?_ fun prefixlen _ => raises_networkOf ip prefixlen
    cases mask with
    | none => exact raises_pure _
    | some mask => exact raises_prefixFromPrefixString 128 mask

private theorem raises_ipNetwork (s : Text) : RaisesValueError (ipNetwork s) := by
  refine (raises_ipv4Network s).attempt.bind fun first _ => ?_
  cases first with
  | some network => exact raises_pure _
  | none =>
    refine (raises_ipv6Network s).attempt.bind fun second _ => ?_
    cases second with
    | some network => exact raises_pure _
    | none => exact raises_error rfl

end Networks

section Actions

private theorem raises_unpackOne (params : List Text) : RaisesValueError (unpackOne params) := by
  match params with
  | [] => exact raises_error rfl
  | [param] => exact raises_ok param
  | _ :: _ :: _ => exact raises_error rfl

private theorem raises_queryParam (query : Query) (key : Text) :
    Raises (fun e => e.isKeyError = true) (queryParam query key) := by
  rw [queryParam]
  split
  · exact raises_ok _
  · exact raises_error rfl

theorem answered_getActionFromParam (paramKey paramValue : Text) (separator : Char) :
    Answered (getActionFromParam paramKey paramValue separator) := by
  apply raises_ite
  · exact fun _ => raises_ok none
  · intro _
    refine (raises_unpackOne _).attempt.bind fun param _ => ?_
    cases param with
    | none =>
      refine raises_ite (fun _ => raises_error rfl) fun _ => ?_
      exact raises_ite (fun _ => raises_error rfl) fun _ => raises_pure _
    | some param =>
      refine raises_ite (fun _ => raises_pure _) fun _ => ?_
      refine raises_ite (fun _ => raises_pure _) fun _ => ?_
      refine raises_ite (fun _ => ?_) fun _ => raises_pure _
      -- Whatever `ip_network` raises, it is replaced.
      refine Raises.bind ?_ fun subnet _ => raises_pure _
      exact (raises_ipNetwork param).replace rfl

private theorem answered_actionFromKeys (query : Query) (separator : Char) (keys : List Text) :
    Answered (actionFromKeys query separator keys) := by
  induction keys with
  | nil => exact raises_ok none
  | cons key keys ih =>
    refine (raises_queryParam query key).attempt.bind fun value _ => ?_
    cases value with
    | none => exact ih
    | some value =>
      refine (answered_getActionFromParam key value separator).bind fun action _ => ?_
      cases action with
      | some action => exact raises_pure _
      | none => exact ih

theorem answered_findAction (query : Query) (remoteAddr : Text) (paramKeys : List Text)
    (separator : Char) : Answered (findAction query remoteAddr paramKeys separator) := by
  refine (answered_actionFromKeys query separator paramKeys).bind fun action _ => ?_
  cases action with
  | some action => exact raises_pure action
  | none => exact raises_ite (fun _ => raises_pure _) fun _ => raises_pure _

end Actions

end DesecStack.DynDns.Actions
