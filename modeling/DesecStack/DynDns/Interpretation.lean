/- module: DesecStack/DynDns/Interpretation
   source: api/desecapi/views/dyndns.py 166-300
   digest: What a dynDNS request is about, the exceptions on the way, and the one that escapes. -/

import DesecStack.DynDns.Actions
import DesecStack.DynDns.Channels

set_option autoImplicit false
set_option relaxedAutoImplicit false

namespace DesecStack.DynDns.Interpretation

open Library.PyText
open Library.Raising
open Domains.Resolution
open Actions
open Channels (Bytes User Extra utf8Encode utf8Decode sanitizeQnames paramType zoneOf hostname
  hostId username yes)

/-- The query parameters, the value of the `Authorization` header (empty if there is none), and
the client address. -/
structure Request where
  query : Query
  authorization : Bytes
  remoteAddr : Text

/-! ### Decoding the header -/

/-- `bytes.decode()` -/
def decode (bytes : Bytes) : Except Raised Text :=
  match utf8Decode bytes with
  | some s => .ok s
  | none => .error .unicodeDecodeError

/-- `list[i]` -/
def index {α : Type} (list : List α) (i : Nat) : Except Raised α :=
  match list[i]? with
  | some a => .ok a
  | none => .error .indexError

/-- The value of a character in the base64 alphabet. -/
def base64Digit (b : UInt8) : Option Nat :=
  let n := b.toNat
  if 65 ≤ n ∧ n ≤ 90 then some (n - 65)
  else if 97 ≤ n ∧ n ≤ 122 then some (n - 71)
  else if 48 ≤ n ∧ n ≤ 57 then some (n + 4)
  else if n = 43 then some 62
  else if n = 47 then some 63
  else none

/-- `binascii.a2b_base64`, which skips other characters, from a position in a quad, with the bits
left over and the padding seen there. -/
def a2bBase64 : (quadPos leftchar pads : Nat) → Bytes → Except Raised Bytes
  | quadPos, _, _, [] => if quadPos = 0 then .ok [] else .error .binasciiError
  | quadPos, leftchar, pads, b :: rest =>
    if b.toNat = 61 then
      if 2 ≤ quadPos then
        if 4 ≤ quadPos + (pads + 1) then .ok [] else a2bBase64 quadPos leftchar (pads + 1) rest
      else a2bBase64 quadPos leftchar pads rest
    else
      match base64Digit b with
      | none => a2bBase64 quadPos leftchar pads rest
      | some digit =>
        match quadPos with
        | 0 => a2bBase64 1 digit 0 rest
        | 1 => do
          let bytes ← a2bBase64 2 (digit % 16) 0 rest
          pure (UInt8.ofNat (leftchar * 4 + digit / 16) :: bytes)
        | 2 => do
          let bytes ← a2bBase64 3 (digit % 4) 0 rest
          pure (UInt8.ofNat (leftchar * 16 + digit / 4) :: bytes)
        | _ => do
          let bytes ← a2bBase64 0 0 0 rest
          pure (UInt8.ofNat (leftchar * 64 + digit) :: bytes)

/-- `base64.b64decode` -/
def b64decode (bytes : Bytes) : Except Raised Bytes := a2bBase64 0 0 0 bytes

/-- The user name in the header. -/
def headerName (authorization : Bytes) : Except Raised Text := do
  let header ← decode authorization
  let value ← index (split ' ' header) 1
  let bytes ← b64decode (utf8Encode value)
  let credentials ← decode bytes
  index (split ':' credentials) 0

/-- `except (binascii.Error, IndexError, UnicodeDecodeError)` -/
def isHeaderError : Raised → Bool
  | .binasciiError | .indexError | .unicodeDecodeError => true
  | _ => false

/-! ### Names -/

variable {unicode : Unicode}

/-- The parameters that name hosts, with the values that do not. -/
def nameParams : List (Text × List Text) := [(hostname, [[], yes]), (hostId, [])]

/-- The loop over these parameters. -/
def nameFromParams (query : Query) : List (Text × List Text) → Except Raised (Option Text)
  | [] => .ok none
  | (param, reserved) :: params => do
    match ← attempt Raised.isKeyError (queryParam query param) with
    | none => nameFromParams query params
    | some names => if names ∉ reserved then pure (some names) else nameFromParams query params

/-- `user.domains.get()` -/
def onlyDomain (domains : DomainTable unicode) (user : User) : Except Raised Domain :=
  match domains.rows.filter fun d => d.owner = user.id with
  | [] => .error .doesNotExist
  | [d] => .ok d
  | _ => .error .multipleObjectsReturned

/-- The only domain of the user, where there are not several. -/
def soleName (domains : DomainTable unicode) (user : User) : Except Raised (List Text) := do
  let d ← replace (· = .multipleObjectsReturned) (.validationError .domainUnspecified)
    (onlyDomain domains user)
  pure [d.name]

/-- `qnames` -/
def qnames (domains : DomainTable unicode) (user : User) (request : Request) :
    Except Raised (List Text) := do
  match ← nameFromParams request.query nameParams with
  | some names => pure (sanitizeQnames unicode names)
  | none =>
    match ← attempt isHeaderError (headerName request.authorization) with
    | some names =>
      if names ≠ [] ∧ '@' ∉ names then pure (sanitizeQnames unicode names) else fromUsername
    | none => fromUsername
where
  /-- The `username` parameter, and the only domain. -/
  fromUsername : Except Raised (List Text) := do
    match ← attempt Raised.isKeyError (queryParam request.query username) with
    | some names => pure (sanitizeQnames unicode names)
    | none => soleName domains user

/-- `query_params.items()`: each key once, where it came first, with its last value. -/
def items (query : Query) : List (Text × Text) :=
  (query.map Prod.fst).reverse.dedup.reverse.filterMap fun key =>
    (query.reverse.lookup key).map fun value => (key, value)

/-- `param.split(":", 1)`, unpacked. -/
def splitColon (param : Text) : Except Raised (Text × Text) :=
  match partition ':' param with
  | (paramPrefix, some paramSuffix) => .ok (paramPrefix, paramSuffix)
  | (_, none) => .error .valueError

/-- `param_prefix_types[param_prefix]` -/
def prefixType (paramPrefix : Text) : Except Raised Text :=
  match paramType paramPrefix with
  | some type => .ok type
  | none => .error .keyError

/-- One round of the loop in `extra_qname_params`. -/
def addExtra (unicode : Unicode) (params : Extra) (item : Text × Text) : Except Raised Extra := do
  match ← attempt Raised.isValueError (splitColon item.1) with
  | none => pure params
  | some (paramPrefix, paramSuffix) =>
    match ← attempt Raised.isKeyError (prefixType paramPrefix) with
    | none => pure params
    | some type => pure ((sanitizeQnames unicode paramSuffix).foldl
        (fun params qname => params.insert (qname, type) item.2) params)

/-- `extra_qname_params` -/
def extraQnameParams (unicode : Unicode) (query : Query) : Except Raised Extra :=
  (items query).foldlM (addExtra unicode) ∅

/-- `domain`, of all names that occur. -/
def domain (domains : DomainTable unicode) (user : User) (names : List Text) :
    Except Raised Domain :=
  let found := names.filterMap (zoneOf domains user)
  if found.length ≠ names.length then .error .notFound
  else if 1 < found.dedup.length then .error (.validationError .crossDomainUpdate)
  else index found 0

/-- `extra_actions` -/
def extraActions (d : Domain) (params : Extra) :
    Except Raised (List ((Text × Text) × Option UpdateAction)) :=
  params.entries.mapM fun param => do
    let action ← getActionFromParam param.1.1 param.2
      (if param.1.2 = "A".toList then '.' else ':')
    pure ((param.1.2, subname param.1.1 d), action)

/-- The hosts and actions that a request is about. -/
structure Addressed where
  domain : Domain
  subnames : List Text
  extraActions : List ((Text × Text) × Option UpdateAction)
  actionA : UpdateAction
  actionAAAA : UpdateAction

/-- What the view evaluates before it looks at the records. -/
def interpret (domains : DomainTable unicode) (user : User) (request : Request) :
    Except Raised Addressed := do
  let names ← qnames domains user request
  let extra ← extraQnameParams unicode request.query
  let domain ← domain domains user (names ++ extra.keys.map Prod.fst).dedup
  let extraActions ← extraActions domain extra
  let actionA ← findAction request.query request.remoteAddr keysA '.'
  let actionAAAA ← findAction request.query request.remoteAddr keysAAAA ':'
  pure ⟨domain, names.map (subname · domain), extraActions, actionA, actionAAAA⟩

/-- The request has names of hosts in one of the places. -/
def NamesHosts (request : Request) : Prop :=
  (∃ names, queryParam request.query hostname = .ok names ∧ names ∉ [[], yes]) ∨
    (∃ names, queryParam request.query hostId = .ok names) ∨
    (∃ names, headerName request.authorization = .ok names ∧ names ≠ [] ∧ '@' ∉ names) ∨
    ∃ names, queryParam request.query username = .ok names

/-- The user has a domain. -/
def HasDomain (domains : DomainTable unicode) (user : User) : Prop :=
  ∃ d ∈ domains.rows, d.owner = user.id

/-! ### What may escape -/

section Header

private theorem raises_decode (bytes : Bytes) :
    Raises (fun e => isHeaderError e = true) (decode bytes) := by
  rw [decode]
  split
  · exact raises_ok _
  · exact raises_error rfl

private theorem raises_index {α : Type} (list : List α) (i : Nat) :
    Raises (fun e => isHeaderError e = true) (index list i) := by
  rw [index]
  split
  · exact raises_ok _
  · exact raises_error rfl

private theorem raises_a2bBase64 (bytes : Bytes) : ∀ quadPos leftchar pads,
    Raises (fun e => isHeaderError e = true) (a2bBase64 quadPos leftchar pads bytes) := by
  induction bytes with
  | nil =>
    intro quadPos leftchar pads
    exact raises_ite (fun _ => raises_ok _) fun _ => raises_error rfl
  | cons b rest ih =>
    intro quadPos leftchar pads
    apply raises_ite
    · intro _
      refine raises_ite (fun _ => ?_) fun _ => ih _ _ _
      exact raises_ite (fun _ => raises_ok _) fun _ => ih _ _ _
    · intro _
      split
      · exact ih _ _ _
      · split
        · exact ih _ _ _
        · exact (ih _ _ _).bind fun _ _ => raises_pure _
        · exact (ih _ _ _).bind fun _ _ => raises_pure _
        · exact (ih _ _ _).bind fun _ _ => raises_pure _

private theorem raises_headerName (authorization : Bytes) :
    Raises (fun e => isHeaderError e = true) (headerName authorization) := by
  refine (raises_decode authorization).bind fun header _ => ?_
  refine (raises_index _ 1).bind fun value _ => ?_
  refine (raises_a2bBase64 _ 0 0 0).bind fun bytes _ => ?_
  refine (raises_decode bytes).bind fun credentials _ => ?_
  exact raises_index _ 0

end Header

section Names

variable {domains : DomainTable unicode} {user : User} {request : Request}

private theorem attempt_queryParam (query : Query) (key : Text) :
    attempt Raised.isKeyError (queryParam query key) = .ok (query.reverse.lookup key) := by
  rw [queryParam]
  cases query.reverse.lookup key <;> rfl

private theorem queryParam_eq_ok_iff {query : Query} {key value : Text} :
    queryParam query key = .ok value ↔ query.reverse.lookup key = some value := by
  rw [queryParam]
  cases query.reverse.lookup key <;> simp

private theorem nameFromParams_eq (query : Query) :
    nameFromParams query nameParams =
      .ok (((query.reverse.lookup hostname).filter (· ∉ [[], yes])).or
        (query.reverse.lookup hostId)) := by
  have second : nameFromParams query [(hostId, [])] = .ok (query.reverse.lookup hostId) := by
    rw [nameFromParams, attempt_queryParam]
    cases query.reverse.lookup hostId <;> rfl
  rw [nameParams, nameFromParams, attempt_queryParam]
  cases query.reverse.lookup hostname with
  | none => exact second
  | some names =>
    rw [Option.filter_some]
    by_cases given : names ∉ [[], yes]
    · rw [if_pos (decide_eq_true given)]
      exact if_pos given
    · rw [if_neg (by simpa using given), Option.none_or, ← second]
      exact if_neg given

/-- The name in the header, where it decodes. -/
def headed (request : Request) : Option Text :=
  (headerName request.authorization).toOption.filter fun names => names ≠ [] && '@' ∉ names

/-- The names given in the first of the places. -/
def namesGiven (request : Request) : Option Text :=
  ((request.query.reverse.lookup hostname).filter (· ∉ [[], yes])).or <|
    (request.query.reverse.lookup hostId).or <|
      (headed request).or (request.query.reverse.lookup username)

private theorem toOption_eq_some_iff {α : Type} {x : Except Raised α} {a : α} :
    x.toOption = some a ↔ x = .ok a := by
  cases x <;> simp [Except.toOption]

private theorem namesGiven_isSome_iff : (namesGiven request).isSome ↔ NamesHosts request := by
  simp only [namesGiven, headed, NamesHosts, queryParam_eq_ok_iff, Option.isSome_or,
    Option.isSome_filter, Bool.or_eq_true, Option.any_eq_true, Option.isSome_iff_exists,
    toOption_eq_some_iff]
  simp

private theorem attempt_headerName (authorization : Bytes) :
    attempt isHeaderError (headerName authorization) = .ok (headerName authorization).toOption := by
  cases found : headerName authorization with
  | ok names => rfl
  | error e => exact if_pos (raises_headerName authorization e found)

private theorem qnames_eq : qnames domains user request =
    match namesGiven request with
    | some names => .ok (sanitizeQnames unicode names)
    | none => soleName domains user := by
  have last : qnames.fromUsername domains user request =
      match request.query.reverse.lookup username with
      | some names => .ok (sanitizeQnames unicode names)
      | none => soleName domains user := by
    rw [qnames.fromUsername, attempt_queryParam]
    cases request.query.reverse.lookup username <;> rfl
  rw [qnames, nameFromParams_eq, attempt_headerName, namesGiven, ← Option.or_assoc]
  cases ((request.query.reverse.lookup hostname).filter (· ∉ [[], yes])).or
      (request.query.reverse.lookup hostId) with
  | some names => rfl
  | none =>
    rw [Option.none_or, headed]
    cases (headerName request.authorization).toOption with
    | none => exact last
    | some names =>
      rw [Option.filter_some]
      by_cases given : names ≠ [] ∧ '@' ∉ names
      · rw [if_pos (by simpa using given)]
        exact if_pos given
      · rw [if_neg (by simpa using given), Option.none_or, ← last]
        exact if_neg given

end Names

section Lookups

variable {domains : DomainTable unicode} {user : User} {request : Request}

/-- Parameters that are not about hosts are passed over. -/
theorem raises_addExtra {kind : Raised → Prop} (params : Extra) (item : Text × Text) :
    Raises kind (addExtra unicode params item) := by
  have colon : Raises (fun e => e.isValueError = true) (splitColon item.1) := by
    rw [splitColon]
    split
    · exact raises_ok _
    · exact raises_error rfl
  refine colon.attempt.bind fun split _ => ?_
  cases split with
  | none => exact raises_pure params
  | some parts =>
    have known : Raises (fun e => e.isKeyError = true) (prefixType parts.1) := by
      rw [prefixType]
      split
      · exact raises_ok _
      · exact raises_error rfl
    refine known.attempt.bind fun type _ => ?_
    cases type with
    | none => exact raises_pure params
    | some type => exact raises_pure _

/-- Where all names have a domain, there is a first one. -/
theorem answered_domain {names : List Text} (some : names ≠ []) :
    Answered (domain domains user names) := by
  refine raises_ite (fun _ => raises_error rfl) fun all => ?_
  refine raises_ite (fun _ => raises_error rfl) fun _ => ?_
  rw [not_not] at all
  cases found : names.filterMap (zoneOf domains user) with
  | nil =>
    rw [found, List.length_nil, eq_comm, List.length_eq_zero_iff] at all
    exact absurd all some
  | cons d ds => exact raises_ok d

private theorem answered_extraActions (d : Domain) (params : Extra) :
    Answered (extraActions d params) := by
  refine raises_mapM fun param _ => ?_
  exact (answered_getActionFromParam _ _ _).bind fun action _ => raises_pure _

private theorem answered_soleName_iff :
    Answered (soleName domains user) ↔ HasDomain domains user := by
  have own : HasDomain domains user ↔ (domains.rows.filter fun d => d.owner = user.id) ≠ [] := by
    rw [Ne, List.filter_eq_nil_iff]
    simp [HasDomain]
  rw [own, soleName, onlyDomain]
  constructor
  · intro answered none
    rw [none] at answered
    exact absurd (answered .doesNotExist rfl) (by decide)
  · intro several
    refine Raises.bind ?_ fun d _ => raises_pure _
    split
    · next none => exact absurd none several
    · exact raises_ok _
    · exact raises_error rfl

private theorem answered_qnames_iff :
    Answered (qnames domains user request) ↔ NamesHosts request ∨ HasDomain domains user := by
  rw [qnames_eq, ← namesGiven_isSome_iff, ← answered_soleName_iff]
  cases namesGiven request with
  | some names => simp [raises_ok]
  | none => simp

/-- Some name is asked about. -/
theorem qnames_ne_nil {names : List Text} (done : qnames domains user request = .ok names) :
    names ≠ [] := by
  rw [qnames_eq] at done
  cases given : namesGiven request with
  | some text =>
    rw [given] at done
    rw [← Except.ok.inj done, sanitizeQnames, Ne, List.dedup_eq_nil, List.map_eq_nil_iff]
    exact List.splitOn_ne_nil ',' _
  | none =>
    rw [given] at done
    obtain ⟨d, _, only⟩ := Library.Runs.bind_eq_ok_iff.mp done
    rw [← Except.ok.inj only]
    exact List.cons_ne_nil _ _

end Lookups

/-- The interpretation of a request ends with hosts and actions, or with an answer, unless no host
is named and the user has no domain. -/
theorem answered_interpret_iff (domains : DomainTable unicode) (user : User) (request : Request) :
    Answered (interpret domains user request) ↔ NamesHosts request ∨ HasDomain domains user := by
  rw [← answered_qnames_iff]
  constructor
  · intro answered e raised
    exact answered e (by rw [interpret, raised]; rfl)
  · intro answered
    refine answered.bind fun names done => ?_
    refine (raises_foldlM (fun params item => raises_addExtra params item) _).bind
      fun extra _ => ?_
    have some : (names ++ extra.keys.map Prod.fst).dedup ≠ [] := by
      simp [qnames_ne_nil done]
    refine (answered_domain some).bind fun d _ => ?_
    refine (answered_extraActions d extra).bind fun extraActions _ => ?_
    refine (answered_findAction _ _ _ _).bind fun actionA _ => ?_
    exact (answered_findAction _ _ _ _).bind fun actionAAAA _ => raises_pure _

def noDomains : DomainTable Unicode.plain :=
  ⟨[], List.nodup_nil, fun _ => (absurd · List.not_mem_nil)⟩

/-- A request with the credentials of a token and no user name, and an address. -/
def unnamed : Request :=
  ⟨[("myip".toList, "192.0.2.1".toList)],
    utf8Encode "Basic OjVDWm5QRFBpV2ZKM3ZWNWhSdllaa2s3dllwZTc=".toList, "192.0.2.1".toList⟩

private theorem address_newUser : '@' ∈ "user@mail.test".toList := by decide

def newUser : User := ⟨1, "user@mail.test".toList, address_newUser⟩

private theorem headerName_unnamed : headerName unnamed.authorization = .ok [] := by
  have header : decode unnamed.authorization =
      .ok "Basic OjVDWm5QRFBpV2ZKM3ZWNWhSdllaa2s3dllwZTc=".toList := by
    rw [decode, unnamed, Channels.utf8Decode_utf8Encode]
  have value : index (split ' ' "Basic OjVDWm5QRFBpV2ZKM3ZWNWhSdllaa2s3dllwZTc=".toList) 1 =
      .ok "OjVDWm5QRFBpV2ZKM3ZWNWhSdllaa2s3dllwZTc=".toList := by decide +kernel
  have bytes : b64decode (utf8Encode "OjVDWm5QRFBpV2ZKM3ZWNWhSdllaa2s3dllwZTc=".toList) =
      .ok (utf8Encode ":5CZnPDPiWfJ3vV5hRvYZkk7vYpe7".toList) := by decide +kernel
  have credentials : decode (utf8Encode ":5CZnPDPiWfJ3vV5hRvYZkk7vYpe7".toList) =
      .ok ":5CZnPDPiWfJ3vV5hRvYZkk7vYpe7".toList := by
    rw [decode, Channels.utf8Decode_utf8Encode]
  simp only [headerName, header, value, bytes, credentials, bind, Except.bind]
  decide

/-- The exception escapes. -/
theorem unnamed_raises : interpret noDomains newUser unnamed = .error .doesNotExist ∧
    ¬ Answered (interpret noDomains newUser unnamed) := by
  have given : namesGiven unnamed = none := by
    rw [namesGiven, headed, headerName_unnamed]
    decide
  have raised : interpret noDomains newUser unnamed = .error .doesNotExist := by
    rw [interpret, qnames_eq, given]
    rfl
  exact ⟨raised, fun answered => absurd (answered _ raised) (by decide)⟩

end DesecStack.DynDns.Interpretation
