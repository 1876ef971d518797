/- module: DesecStack/DynDns/Channels
   source: api/desecapi/authentication.py 22-152, api/desecapi/views/dyndns.py 166-280
   digest: The ways to name hosts in a dynDNS request, and when they come to the same. -/

import DesecStack.Domains.Resolution
import Mathlib.Data.List.AList
import Mathlib.Data.List.MinMax

set_option autoImplicit false
set_option relaxedAutoImplicit false

namespace DesecStack.DynDns.Channels

open Library.PyText
open Domains.Resolution
open Names.Validators (mem_domainName)
open Names.Qnames (runNameValidators)
open Names.Grammar (labelPattern)

abbrev Bytes := List UInt8

/-! ### Encodings -/

def utf8Encode (s : Text) : Bytes := s.flatMap String.utf8EncodeChar

/-- `bytes.decode()` -/
def utf8Decode (bytes : Bytes) : Option Text := bytes.toByteArray.utf8Decode?.map Array.toList

/-- `bytes.decode(HTTP_HEADER_ENCODING)` -/
def latin1Decode (bytes : Bytes) : Text := bytes.map fun b => Char.ofNat b.toNat

/-! ### The request -/

/-- A user, whose email address is one. -/
structure User where
  id : Nat
  email : Text
  address : '@' ∈ email

/-- A token, with the test whether a client address is in one of its `allowed_subnets`. -/
structure Token where
  id : Nat
  user : User
  allowedSubnets : Text → Bool

/-- The database, with the valid tokens by their secrets, which are URL-safe texts, and
`base64.b64decode` on such a secret. -/
structure Environment (unicode : Unicode) where
  domains : DomainTable unicode
  tokens : Text → Option Token
  urlsafe : ∀ key token, tokens key = some token → ∀ c ∈ key, c ≠ ':' ∧ c.toNat < 128
  b64decode : Text → Option Bytes

/-- The `Authorization` header: none, `Token` with a secret, or `Basic` with credentials, from
which the base64 encoding is removed here. -/
inductive Authorization where
  | absent
  | token (key : Text)
  | basic (credentials : Bytes)

/-- The query parameters in their order, each once, with the header and the client address. -/
structure Request where
  query : List (Text × Text)
  authorization : Authorization
  remoteAddr : Text

/-- What a request may be answered with instead of an update. -/
inductive Failure where
  | authenticationFailed
  | domainUnspecified
  | doesNotExist
  | nohost
  | crossDomainUpdate
  deriving DecidableEq, Repr

variable {unicode : Unicode}

def hostname : Text := "hostname".toList
def hostId : Text := "host_id".toList
def username : Text := "username".toList
def password : Text := "password".toList
def yes : Text := "YES".toList

/-- `DynAuthenticationMixin.authenticate_credentials` -/
def authenticateCredentials (env : Environment unicode) (name key : Text) : Option Token :=
  match env.tokens key with
  | none => none
  | some token =>
    if name ∈ [[], token.user.email] ∨
        env.domains.filterQname (unicode.lower name) token.user.id ≠ [] then some token
    else none

/-- The three authentication classes in their order. -/
def authenticate (env : Environment unicode) (request : Request) : Except Failure Token :=
  let authenticated : Option Token :=
    match request.authorization with
    | .token key => (env.tokens key).filter fun token => token.allowedSubnets request.remoteAddr
    | .basic credentials =>
      match split ':' (latin1Decode credentials) with
      | [name, key] => authenticateCredentials env name key
      | _ => none
    | .absent =>
      match request.query.lookup username, request.query.lookup password with
      | some name, some key => authenticateCredentials env name key
      | _, _ => none
  match authenticated with
  | some token => .ok token
  | none => .error .authenticationFailed

/-- `_sanitize_qnames`, without repetitions -/
def sanitizeQnames (unicode : Unicode) (qnames : Text) : List Text :=
  ((split ',' (unicode.lower qnames)).map strip).dedup

/-- What the view takes for the user name in a header. -/
def headerName (env : Environment unicode) (authorization : Authorization) : Option Text :=
  let bytes : Option Bytes :=
    match authorization with
    | .absent => none
    | .token key => env.b64decode key
    | .basic credentials => some credentials
  let name := (bytes.bind utf8Decode).map (·.takeWhile (· != ':'))
  name.filter fun name => name ≠ [] && '@' ∉ name

/-- The names given in the first of the places where they may stand. -/
def namesGiven (env : Environment unicode) (request : Request) : Option Text :=
  match (request.query.lookup hostname).filter (· ∉ [[], yes]) with
  | some names => some names
  | none =>
    match request.query.lookup hostId with
    | some names => some names
    | none =>
      match headerName env request.authorization with
      | some names => some names
      | none => request.query.lookup username

/-- `qnames` -/
def qnames (env : Environment unicode) (user : User) (request : Request) :
    Except Failure (List Text) :=
  match namesGiven env request with
  | some names => .ok (sanitizeQnames unicode names)
  | none =>
    match env.domains.rows.filter fun d => d.owner = user.id with
    | [] => .error .doesNotExist
    | [d] => .ok [d.name]
    | _ => .error .domainUnspecified

/-- `param_prefix_types` -/
def paramType (start : Text) : Option Text :=
  if start = "myipv4".toList then some "A".toList
  else if start = "myipv6".toList then some "AAAA".toList
  else none

/-- Raw values of parameters, by name and type. -/
abbrev Extra := AList fun _ : Text × Text => Text

/-- One parameter, with the names after a colon. -/
def addExtra (unicode : Unicode) (params : Extra) (item : Text × Text) : Extra :=
  match partition ':' item.1 with
  | (_, none) => params
  | (start, some suffix) =>
    match paramType start with
    | none => params
    | some type => (sanitizeQnames unicode suffix).foldl
        (fun params qname => params.insert (qname, type) item.2) params

/-- `extra_qname_params` -/
def extraQnameParams (unicode : Unicode) (query : List (Text × Text)) : Extra :=
  query.foldl (addExtra unicode) ∅

/-- `filter_qname(...).order_by("-name_length")[:1]` -/
def zoneOf (domains : DomainTable unicode) (user : User) (qname : Text) : Option Domain :=
  (domains.filterQname qname user.id).argmax fun d => d.name.length

/-- `domain`, from the names in all places -/
def domainOf (domains : DomainTable unicode) (user : User) (names : List Text) :
    Except Failure Domain :=
  match names.mapM (zoneOf domains user) with
  | none | some [] => .error .nohost
  | some (d :: ds) => if ∀ e ∈ ds, e = d then .ok d else .error .crossDomainUpdate

/-- The general parameters with addresses. -/
def ipKeys : List Text :=
  ["myip".toList, "myipv4".toList, "ip".toList, "myipv6".toList, "ipv6".toList]

/-- All that the update depends on, apart from the database: the token and its user, the domain
and the subnames, and the parameters with addresses. -/
structure Reading where
  token : Token
  domain : Domain
  subnames : List Text
  extraQnameParams : Extra
  ipParams : List (Option Text)
  remoteAddr : Text

/-- What a request asks for that is about certain names. -/
def readNames (env : Environment unicode) (request : Request) (token : Token)
    (names : List Text) : Except Failure Reading :=
  let extra := extraQnameParams unicode request.query
  (domainOf env.domains token.user (names ++ extra.keys.map Prod.fst).dedup).map fun domain =>
    ⟨token, domain, names.map (subname · domain), extra,
      ipKeys.map fun key => request.query.lookup key, request.remoteAddr⟩

/-- What a request asks for, or why it is refused. -/
def read (env : Environment unicode) (request : Request) : Except Failure Reading :=
  match authenticate env request with
  | .error failure => .error failure
  | .ok token =>
    match qnames env token.user request with
    | .error failure => .error failure
    | .ok names => readNames env request token names

/-! ### The ways to name hosts -/

inductive Channel where
  | hostname
  | hostId
  | basic
  | username

/-- A request with a list of names in one place, and the secret of a token. -/
def send (channel : Channel) (names key : Text) (ip : List (Text × Text)) (remoteAddr : Text) :
    Request :=
  match channel with
  | .hostname => ⟨(hostname, names) :: ip, .token key, remoteAddr⟩
  | .hostId => ⟨(hostId, names) :: ip, .token key, remoteAddr⟩
  | .basic => ⟨ip, .basic (utf8Encode (names ++ ':' :: key)), remoteAddr⟩
  | .username => ⟨(username, names) :: (password, key) :: ip, .absent, remoteAddr⟩

/-- Parameters that neither name hosts nor authenticate. -/
def IpParams (ip : List (Text × Text)) : Prop :=
  ∀ key ∈ [hostname, hostId, username, password], ip.lookup key = none

/-- All names of the list lie in one domain of the user. -/
def InOneDomain (env : Environment unicode) (user : User) (names : Text) : Prop :=
  ∃ d, ∀ qname ∈ sanitizeQnames unicode names, d ∈ env.domains.filterQname qname user.id

/-- It makes no difference where the names stand: the same token is authenticated and the same
is asked for, or the request is refused in the same way. -/
def Equivalent (env : Environment unicode) (names key : Text) : Prop :=
  ∀ ip remoteAddr, IpParams ip → ∀ channel,
    read env (send channel names key ip remoteAddr)
      = read env (send .hostId names key ip remoteAddr)

/-- The whole text lies in a domain of the user, taken as one name. -/
def Known (env : Environment unicode) (user : User) (name : Text) : Prop :=
  env.domains.filterQname (unicode.lower name) user.id ≠ []

instance (env : Environment unicode) (user : User) (name : Text) :
    Decidable (Known env user name) :=
  inferInstanceAs (Decidable (_ ≠ _))

/-- The list is taken for one name of the user, both as it is and as the credentials are
decoded; and if it is the reserved value, it says what a request without names means. -/
def Alike (env : Environment unicode) (user : User) (names key : Text) : Prop :=
  Known env user names ∧ Known env user (latin1Decode (utf8Encode names)) ∧
    (names = yes → qnames env user ⟨[], .token key, []⟩ = .ok (sanitizeQnames unicode names))

/-- What is used of `str.lower`: only plain characters have a lowercase of plain characters, and
each plain character is lowercased for itself. -/
structure Casing (unicode : Unicode) : Prop where
  narrow : Narrow unicode
  keeps : ∀ s, ∀ c ∈ s, isPlain c = true → ∀ d ∈ lowerPlain c, d ∈ unicode.lower s

/-! ### Reading the encodings -/

theorem utf8Decode_utf8Encode (s : Text) : utf8Decode (utf8Encode s) = some s := by
  have whole : (utf8Encode s).toByteArray = s.utf8Encode := rfl
  rw [utf8Decode, whole, List.utf8Decode?_utf8Encode, Option.map_some]

private theorem utf8Encode_append (s t : Text) :
    utf8Encode (s ++ t) = utf8Encode s ++ utf8Encode t :=
  List.flatMap_append

private theorem latin1Decode_append (a b : Bytes) :
    latin1Decode (a ++ b) = latin1Decode a ++ latin1Decode b := List.map_append

private theorem utf8EncodeChar_of_low {c : Char} (low : c.toNat < 128) :
    String.utf8EncodeChar c = [UInt8.ofNat c.toNat] := by
  have small : c.val.toNat ≤ 0x7f := Nat.le_of_lt_succ low
  exact if_pos small

private theorem high_of_mem_utf8EncodeChar {c : Char} (high : 128 ≤ c.toNat) {b : UInt8}
    (inside : b ∈ String.utf8EncodeChar c) : 128 ≤ b.toNat := by
  have large : ¬ c.val.toNat ≤ 0x7f := Nat.not_le_of_lt high
  rw [String.utf8EncodeChar, if_neg large] at inside
  split at inside
  · simp only [List.mem_cons, List.not_mem_nil, or_false] at inside
    rcases inside with rfl | rfl <;> (rw [UInt8.toNat_ofNat']; omega)
  · split at inside
    · simp only [List.mem_cons, List.not_mem_nil, or_false] at inside
      rcases inside with rfl | rfl | rfl <;> (rw [UInt8.toNat_ofNat']; omega)
    · simp only [List.mem_cons, List.not_mem_nil, or_false] at inside
      rcases inside with rfl | rfl | rfl | rfl <;> (rw [UInt8.toNat_ofNat']; omega)

private theorem latin1Decode_char {c : Char} (low : c.toNat < 128) :
    latin1Decode (String.utf8EncodeChar c) = [c] := by
  rw [utf8EncodeChar_of_low low, latin1Decode, List.map_singleton, UInt8.toNat_ofNat',
    Nat.mod_eq_of_lt (by omega), Char.ofNat_toNat]

private theorem latin1Decode_cons (c : Char) (s : Text) : latin1Decode (utf8Encode (c :: s)) =
    latin1Decode (String.utf8EncodeChar c) ++ latin1Decode (utf8Encode s) := by
  rw [utf8Encode, List.flatMap_cons, latin1Decode_append, utf8Encode]

private theorem latin1Decode_utf8Encode {s : Text} (ascii : ∀ c ∈ s, c.toNat < 128) :
    latin1Decode (utf8Encode s) = s := by
  induction s with
  | nil => rfl
  | cons c s ih =>
    rw [latin1Decode_cons, latin1Decode_char (ascii c List.mem_cons_self),
      ih fun d later => ascii d (List.mem_cons_of_mem c later), List.singleton_append]

private theorem mem_latin1Decode_utf8Encode {d : Char} (low : d.toNat < 128) {s : Text} :
    d ∈ latin1Decode (utf8Encode s) ↔ d ∈ s := by
  induction s with
  | nil => exact Iff.rfl
  | cons c s ih =>
    rw [latin1Decode_cons, List.mem_append, List.mem_cons, ih]
    apply or_congr_left
    by_cases ascii : c.toNat < 128
    · rw [latin1Decode_char ascii, List.mem_singleton]
    · constructor
      · intro inside
        obtain ⟨b, byte, rfl⟩ := List.mem_map.mp inside
        have large := high_of_mem_utf8EncodeChar (not_lt.mp ascii) byte
        have code : (Char.ofNat b.toNat).toNat = b.toNat := by
          have valid : b.toNat.isValidChar := Or.inl (by have := b.toNat_lt; omega)
          exact congrArg Char.toNat (dif_pos valid)
        omega
      · rintro rfl
        exact absurd low ascii

/-! ### The names of a list -/

section Names

variable {env : Environment unicode} {user : User} {names : Text}

/-- A character that no name has. -/
def Foreign (c : Char) : Prop :=
  isPlain c = true ∧ lowerPlain c = [c] ∧ c ≠ '*' ∧ c ≠ '.' ∧ c ≠ '\n' ∧ labelPattern c = false

private theorem foreign_at : Foreign '@' := by
  refine ⟨by decide, by decide, by decide, by decide, by decide, by decide⟩

private theorem foreign_colon : Foreign ':' := by
  refine ⟨by decide, by decide, by decide, by decide, by decide, by decide⟩

private theorem foreign_comma : Foreign ',' := by
  refine ⟨by decide, by decide, by decide, by decide, by decide, by decide⟩

theorem not_mem_of_passes (narrow : Narrow unicode) {qname : Text}
    (passed : passes unicode qname = true) {c : Char} (foreign : Foreign c) : c ∉ qname := by
  intro inside
  obtain ⟨plain, stable, star, dot, newline, unmatched⟩ := foreign
  have rest : c ∈ removePrefix qname "*.".toList := mem_removePrefix inside (by simp [star, dot])
  have simple : Simple (removePrefix qname "*.".toList) := simple_removePrefix
    (simple_of_passes narrow passed)
  have kept : lowerChar c = c := by
    have one := (lowerChar_spec c (simple c rest)).1
    rw [stable] at one
    exact (List.singleton_injective one).symm
  have lowered : c ∈ unicode.lower (removePrefix qname "*.".toList) := by
    rw [lower_of_simple simple]
    exact List.mem_map.mpr ⟨c, rest, kept⟩
  rw [passes, runNameValidators, Bool.or_eq_true, Bool.and_eq_true] at passed
  rcases passed with empty | ⟨valid, -⟩
  · rw [of_decide_eq_true empty] at lowered
    exact List.not_mem_nil lowered
  · rcases mem_domainName unicode valid lowered with same | same | matched
    · exact dot same
    · exact newline same
    · rw [labelPattern] at unmatched
      exact absurd matched (by simp [unmatched])

private theorem not_mem_of_together (casing : Casing unicode)
    (together : InOneDomain env user names)
    {c : Char} (foreign : Foreign c) (comma : c ≠ ',') (visible : isSpace c = false) :
    c ∉ names := by
  intro inside
  obtain ⟨d, found⟩ := together
  have lowered : c ∈ unicode.lower names :=
    casing.keeps names c inside foreign.1 c (foreign.2.1 ▸ List.mem_singleton_self c)
  obtain ⟨part, member, within⟩ := exists_part_of_mem comma lowered
  have listed : strip part ∈ sanitizeQnames unicode names :=
    List.mem_dedup.mpr (List.mem_map_of_mem member)
  exact not_mem_of_passes casing.narrow ((mem_filterQname d).mp (found _ listed)).1 foreign
    (mem_strip within visible)

private theorem ne_nil_of_together (together : InOneDomain env user names) : names ≠ [] := by
  rintro rfl
  obtain ⟨d, found⟩ := together
  have none : unicode.lower [] = [] := unicode.lower_plain [] (by simp)
  have listed : [] ∈ sanitizeQnames unicode [] := by
    rw [sanitizeQnames, none]
    decide
  have encloses := ((mem_filterQname d).mp (found [] listed)).2
  have named : d.name ≠ [] := Names.Validators.ne_nil unicode (env.domains.valid d encloses.1)
  have length := encloses.2.2.length_le
  simp only [List.length_cons, List.length_nil] at length
  exact named (List.length_eq_zero_iff.mp (by omega))

/-- Two names are not taken for one. -/
theorem not_known_of_comma (casing : Casing unicode) (comma : ',' ∈ names) :
    ¬ Known env user names := by
  intro known
  obtain ⟨d, found⟩ := List.exists_mem_of_ne_nil _ known
  have lowered : ',' ∈ unicode.lower names :=
    casing.keeps names ',' comma foreign_comma.1 ',' (by decide)
  exact not_mem_of_passes casing.narrow ((mem_filterQname d).mp found).1 foreign_comma lowered

end Names

/-! ### Reading the requests -/

section Requests

variable {env : Environment unicode} {token : Token} {names key remoteAddr : Text}
  {ip : List (Text × Text)}

private theorem authenticateCredentials_eq {name : Text} (valid : env.tokens key = some token)
    (something : name ≠ []) (address : '@' ∉ name) :
    authenticateCredentials env name key =
      if Known env token.user name then some token else none := by
  have other : name ≠ token.user.email := by
    rintro rfl
    exact address token.user.address
  rw [authenticateCredentials, valid]
  simp only [List.mem_cons, something, other, List.not_mem_nil, or_self, false_or]
  rfl

private theorem extraQnameParams_cons {param : Text} (plain : ':' ∉ param) (value : Text) :
    extraQnameParams unicode ((param, value) :: ip) = extraQnameParams unicode ip := by
  have skipped : addExtra unicode ∅ (param, value) = ∅ := by
    rw [addExtra, partition, if_neg plain]
  rw [extraQnameParams, extraQnameParams, List.foldl_cons, skipped]

private theorem lookup_cons_of_ne {param key : Text} (other : key ≠ param) (value : Text) :
    ((param, value) :: ip).lookup key = ip.lookup key := by
  rw [List.lookup_cons, beq_eq_false_iff_ne.mpr other]

private theorem ipParams_cons {param : Text} (other : param ∉ ipKeys) (value : Text) :
    (ipKeys.map fun key => ((param, value) :: ip).lookup key) =
      ipKeys.map fun key => ip.lookup key := by
  apply List.map_congr_left
  intro key listed
  apply lookup_cons_of_ne
  rintro rfl
  exact other listed

private theorem readNames_send (channel : Channel) (qnames : List Text) :
    readNames env (send channel names key ip remoteAddr) token qnames =
      readNames env ⟨ip, .absent, remoteAddr⟩ token qnames := by
  have one {param : Text} (plain : ':' ∉ param) (other : param ∉ ipKeys) (value : Text)
      (ip : List (Text × Text)) (authorization : Authorization) :
      readNames env ⟨(param, value) :: ip, authorization, remoteAddr⟩ token qnames =
        readNames env ⟨ip, .absent, remoteAddr⟩ token qnames := by
    simp only [readNames, extraQnameParams_cons plain, ipParams_cons other]
  cases channel with
  | hostname => exact one (by decide) (by decide) names ip _
  | hostId => exact one (by decide) (by decide) names ip _
  | basic => rfl
  | username =>
    rw [send, one (by decide) (by decide), one (by decide) (by decide)]

private theorem authenticate_token (valid : env.tokens key = some token)
    (unrestricted : ∀ address, token.allowedSubnets address = true)
    (query : List (Text × Text)) :
    authenticate env ⟨query, .token key, remoteAddr⟩ = .ok token := by
  simp only [authenticate, valid, Option.filter_some, unrestricted, if_true]

private theorem authenticate_username (valid : env.tokens key = some token) (something : names ≠ [])
    (address : '@' ∉ names) : authenticate env (send .username names key ip remoteAddr) =
      if Known env token.user names then .ok token else .error .authenticationFailed := by
  have credentials : (send .username names key ip remoteAddr).query.lookup username = some names ∧
      (send .username names key ip remoteAddr).query.lookup password = some key := by
    constructor
    · rw [send, List.lookup_cons_self]
    · rw [send, lookup_cons_of_ne (by decide), List.lookup_cons_self]
  rw [authenticate]
  simp only [credentials.1, credentials.2]
  simp only [send, authenticateCredentials_eq valid something address]
  by_cases known : Known env token.user names
  · simp only [if_pos known]
  · simp only [if_neg known]

private theorem authenticate_basic (valid : env.tokens key = some token) (something : names ≠ [])
    (address : '@' ∉ names) (colon : ':' ∉ names) :
    authenticate env (send .basic names key ip remoteAddr) =
      if Known env token.user (latin1Decode (utf8Encode names)) then .ok token
      else .error .authenticationFailed := by
  have urlsafe := env.urlsafe key token valid
  have parts : split ':' (latin1Decode (utf8Encode (names ++ ':' :: key))) =
      [latin1Decode (utf8Encode names), key] := by
    have colonless : ':' ∉ latin1Decode (utf8Encode names) :=
      fun inside => colon ((mem_latin1Decode_utf8Encode (by decide)).mp inside)
    have secret : split ':' key = [key] :=
      split_of_not_mem fun inside => (urlsafe ':' inside).1 rfl
    have whole : latin1Decode (utf8Encode (names ++ ':' :: key)) =
        latin1Decode (utf8Encode names) ++ ':' :: key := by
      rw [utf8Encode_append, latin1Decode_append, latin1Decode_cons, latin1Decode_char (by decide),
        latin1Decode_utf8Encode fun c inside => (urlsafe c inside).2, List.singleton_append]
    have first := split_of_not_mem colonless
    rw [split] at first secret ⊢
    rw [whole, List.splitOn_append_cons_self, first, secret, List.singleton_append]
  have something' : latin1Decode (utf8Encode names) ≠ [] := by
    intro none
    have empty : utf8Encode names = utf8Encode [] := List.map_eq_nil_iff.mp none
    have decoded := utf8Decode_utf8Encode names
    rw [empty, utf8Decode_utf8Encode, Option.some.injEq] at decoded
    exact something decoded.symm
  have address' : '@' ∉ latin1Decode (utf8Encode names) :=
    fun inside => address ((mem_latin1Decode_utf8Encode (by decide)).mp inside)
  simp only [authenticate, send, parts]
  rw [authenticateCredentials_eq valid something' address']
  by_cases known : Known env token.user (latin1Decode (utf8Encode names))
  · simp only [if_pos known]
  · simp only [if_neg known]

private theorem namesGiven_send (params : IpParams ip) (something : names ≠ [])
    (address : '@' ∉ names)
    (colon : ':' ∉ names) (channel : Channel)
    (unreserved : channel = .hostname → names ≠ yes) :
    namesGiven env (send channel names key ip remoteAddr) = some names := by
  have noHostname : ip.lookup hostname = none := params hostname (by decide)
  have noHostId : ip.lookup hostId = none := params hostId (by decide)
  cases channel with
  | hostname =>
    have other := unreserved rfl
    have first : (((hostname, names) :: ip).lookup hostname).filter (· ∉ [[], yes]) =
        some names := by
      rw [List.lookup_cons_self, Option.filter_some, if_pos (by simp [something, other])]
    simp only [namesGiven, send, first]
  | hostId =>
    have first : ((hostId, names) :: ip).lookup hostname = none := by
      rw [lookup_cons_of_ne (by decide), noHostname]
    simp [namesGiven, send, first]
  | basic =>
    have read : headerName env (.basic (utf8Encode (names ++ ':' :: key))) = some names := by
      have before : (names ++ ':' :: key).takeWhile (· != ':') = names := by
        rw [List.takeWhile_append_of_pos]
        · simp
        · intro c inside
          rw [bne_iff_ne]
          rintro rfl
          exact colon inside
      simp [headerName, utf8Decode_utf8Encode, before, something, address]
    simp [namesGiven, send, noHostname, noHostId, read]
  | username =>
    have first : ((username, names) :: (password, key) :: ip).lookup hostname = none := by
      rw [lookup_cons_of_ne (by decide), lookup_cons_of_ne (by decide), noHostname]
    have second : ((username, names) :: (password, key) :: ip).lookup hostId = none := by
      rw [lookup_cons_of_ne (by decide), lookup_cons_of_ne (by decide), noHostId]
    simp [namesGiven, send, first, second, headerName]

private theorem namesGiven_yes (params : IpParams ip) :
    namesGiven env (send .hostname yes key ip remoteAddr) =
      namesGiven env ⟨[], .token key, []⟩ := by
  have noHostId : ((hostname, yes) :: ip).lookup hostId = none := by
    rw [lookup_cons_of_ne (by decide), params hostId (by decide)]
  have noUsername : ((hostname, yes) :: ip).lookup username = none := by
    rw [lookup_cons_of_ne (by decide), params username (by decide)]
  have reserved : (((hostname, yes) :: ip).lookup hostname).filter (· ∉ [[], yes]) = none := by
    rw [List.lookup_cons_self, Option.filter_some, if_neg (by simp)]
  simp only [namesGiven, send, reserved, noHostId, noUsername]
  rfl

private theorem readNames_ne_unauthenticated (request : Request) (qnames : List Text) :
    readNames env request token qnames ≠ .error .authenticationFailed := by
  intro refused
  rw [readNames, domainOf] at refused
  split at refused
  · cases refused
  · cases refused
  · split at refused <;> cases refused

end Requests

section Equivalence

variable {env : Environment unicode} {token : Token} {names key : Text}

private theorem qnames_of_given {user : User} {request : Request}
    (given : namesGiven env request = some names) :
    qnames env user request = .ok (sanitizeQnames unicode names) := by
  rw [qnames, given]

private theorem equivalent_of_alike (casing : Casing unicode) (valid : env.tokens key = some token)
    (unrestricted : ∀ address, token.allowedSubnets address = true)
    (together : InOneDomain env token.user names) (alike : Alike env token.user names key) :
    Equivalent env names key := by
  have something := ne_nil_of_together together
  have address := not_mem_of_together casing together foreign_at (by decide) (by decide)
  have colon := not_mem_of_together casing together foreign_colon (by decide) (by decide)
  obtain ⟨known, knownDecoded, reserved⟩ := alike
  intro ip remoteAddr params
  have asked : ∀ channel, read env (send channel names key ip remoteAddr) =
      readNames env ⟨ip, .absent, remoteAddr⟩ token (sanitizeQnames unicode names) := by
    intro channel
    have authenticated : authenticate env (send channel names key ip remoteAddr) = .ok token := by
      cases channel with
      | hostname => exact authenticate_token valid unrestricted _
      | hostId => exact authenticate_token valid unrestricted _
      | basic => rw [authenticate_basic valid something address colon, if_pos knownDecoded]
      | username => rw [authenticate_username valid something address, if_pos known]
    have given : qnames env token.user (send channel names key ip remoteAddr) =
        .ok (sanitizeQnames unicode names) := by
      by_cases inPlace : channel = .hostname ∧ names = yes
      · obtain ⟨rfl, rfl⟩ := inPlace
        rw [← reserved rfl, qnames, qnames, namesGiven_yes params]
      · exact qnames_of_given (namesGiven_send params something address colon channel
          fun first equal => inPlace ⟨first, equal⟩)
    rw [read, authenticated]
    simp only [given]
    exact readNames_send channel _
  intro channel
  rw [asked channel, asked .hostId]

private theorem read_hostId (casing : Casing unicode) (valid : env.tokens key = some token)
    (unrestricted : ∀ address, token.allowedSubnets address = true)
    (together : InOneDomain env token.user names) :
    read env (send .hostId names key [] []) =
      readNames env ⟨[], .absent, []⟩ token (sanitizeQnames unicode names) := by
  have something := ne_nil_of_together together
  have address := not_mem_of_together casing together foreign_at (by decide) (by decide)
  have colon := not_mem_of_together casing together foreign_colon (by decide) (by decide)
  have none : IpParams [] := fun _ _ => rfl
  have given : qnames env token.user (send .hostId names key [] []) =
      .ok (sanitizeQnames unicode names) :=
    qnames_of_given (namesGiven_send none something address colon .hostId
      (fun first => by cases first))
  rw [read, send, authenticate_token valid unrestricted]
  rw [send] at given
  simp only [given]
  exact readNames_send .hostId _

private theorem domainOf_singleton (user : User) (qname : Text) :
    domainOf env.domains user [qname] =
      match zoneOf env.domains user qname with
      | none => .error .nohost
      | some d => .ok d := by
  rw [domainOf, List.mapM_cons]
  cases zoneOf env.domains user qname with
  | none => rfl
  | some d => rfl

theorem mem_of_zoneOf {domains : DomainTable unicode} {user : User} {qname : Text} {d : Domain}
    (zone : zoneOf domains user qname = some d) :
    d ∈ domains.filterQname qname user.id := List.argmax_mem zone

theorem eq_of_subname (narrow : Narrow unicode) {domains : DomainTable unicode} {user : User}
    {one two : Text} {d : Domain} (first : d ∈ domains.filterQname one user.id)
    (second : d ∈ domains.filterQname two user.id) (same : subname one d = subname two d) :
    one = two := by
  obtain ⟨passed, encloses⟩ := (mem_filterQname d).mp first
  obtain ⟨passed', encloses'⟩ := (mem_filterQname d).mp second
  have whole := constructName_subname narrow passed encloses
  rw [same, constructName_subname narrow passed' encloses'] at whole
  exact (List.append_cancel_right whole).symm

private theorem exists_zoneOf {user : User} {qname : Text} {d : Domain}
    (found : d ∈ env.domains.filterQname qname user.id) :
    ∃ z, zoneOf env.domains user qname = some z := by
  apply Option.ne_none_iff_exists'.mp
  intro none
  rw [zoneOf, List.argmax_eq_none] at none
  exact List.not_mem_nil (none ▸ found)

private theorem append_no_extra (list : List Text) :
    list ++ (extraQnameParams unicode []).keys.map Prod.fst = list := List.append_nil list

private theorem readNames_singleton {qname : Text} {z : Domain}
    (zone : zoneOf env.domains token.user qname = some z) :
    readNames env ⟨[], .absent, []⟩ token [qname] =
      .ok ⟨token, z, [subname qname z], ∅, ipKeys.map fun _ => none, []⟩ := by
  have alone : domainOf env.domains token.user [qname].dedup = .ok z := by
    rw [List.dedup_cons_of_notMem List.not_mem_nil, List.dedup_nil, domainOf_singleton, zone]
  simp only [readNames, append_no_extra, alone]
  rfl

private theorem eq_of_readNames (narrow : Narrow unicode) {qname : Text} {qnames : List Text}
    {d : Domain}
    (found : d ∈ env.domains.filterQname qname token.user.id)
    (same : readNames env ⟨[], .absent, []⟩ token qnames =
      readNames env ⟨[], .absent, []⟩ token [qname]) : qnames = [qname] := by
  obtain ⟨z, zone⟩ := exists_zoneOf found
  rw [readNames_singleton zone] at same
  simp only [readNames, append_no_extra] at same
  cases domain : domainOf env.domains token.user qnames.dedup with
  | error failure =>
    rw [domain] at same
    cases same
  | ok z' =>
    rw [domain] at same
    simp only [Except.map, Except.ok.injEq, Reading.mk.injEq, true_and] at same
    obtain ⟨rfl, subnames, -⟩ := same
    obtain ⟨other, rfl⟩ := List.length_eq_one_iff.mp
      (by rw [← List.length_map, subnames, List.length_singleton])
    rw [List.dedup_cons_of_notMem List.not_mem_nil, List.dedup_nil, domainOf_singleton] at domain
    have zone' : zoneOf env.domains token.user other = some z' := by
      cases found' : zoneOf env.domains token.user other with
      | none =>
        rw [found'] at domain
        cases domain
      | some e =>
        rw [found'] at domain
        cases domain
        rfl
    rw [eq_of_subname narrow (mem_of_zoneOf zone') (mem_of_zoneOf zone)
      (List.singleton_injective subnames)]

/-- If it makes no difference where the list stands, then it is taken for one name. -/
theorem alike_of_equivalent (casing : Casing unicode) (valid : env.tokens key = some token)
    (unrestricted : ∀ address, token.allowedSubnets address = true)
    (together : InOneDomain env token.user names) (equivalent : Equivalent env names key) :
    Alike env token.user names key := by
  have something := ne_nil_of_together together
  have address := not_mem_of_together casing together foreign_at (by decide) (by decide)
  have colon := not_mem_of_together casing together foreign_colon (by decide) (by decide)
  have none : IpParams [] := fun _ _ => rfl
  have asked := read_hostId casing valid unrestricted together
  have authenticated : ∀ channel, authenticate env (send channel names key [] []) ≠
      .error .authenticationFailed := by
    intro channel refused
    have same := equivalent [] [] none channel
    rw [asked, read, refused] at same
    exact readNames_ne_unauthenticated _ _ same.symm
  refine ⟨?_, ?_, ?_⟩
  · by_contra unknown
    apply authenticated .username
    rw [authenticate_username valid something address, if_neg unknown]
  · by_contra unknown
    apply authenticated .basic
    rw [authenticate_basic valid something address colon, if_neg unknown]
  · rintro rfl
    have single : sanitizeQnames unicode yes = ["yes".toList] := by
      rw [sanitizeQnames, unicode.lower_plain yes (forall_mem_of_all (by decide))]
      decide
    have same := equivalent [] [] none .hostname
    have given : qnames env token.user (send .hostname yes key [] []) =
        qnames env token.user ⟨[], .token key, []⟩ := by
      rw [qnames, qnames, namesGiven_yes none]
    obtain ⟨d, found⟩ := together
    rw [asked, read, send, authenticate_token valid unrestricted] at same
    rw [send] at given
    simp only [given] at same
    cases unnamed : qnames env token.user ⟨[], .token key, []⟩ with
    | error failure =>
      obtain ⟨z, zone⟩ := exists_zoneOf (found _ (single ▸ List.mem_singleton_self _))
      rw [unnamed, single, readNames_singleton zone] at same
      cases same
    | ok listed =>
      rw [unnamed] at same
      have moved : readNames env (send .hostname yes key [] []) token listed =
          readNames env ⟨[], .absent, []⟩ token listed := readNames_send .hostname listed
      rw [send] at moved
      simp only [moved, single] at same
      rw [single, eq_of_readNames casing.narrow (found _ (single ▸ List.mem_singleton_self _)) same]

private theorem ascii_spec (c : Char) (ascii : c.toNat < 128) :
    isPlain c = true ∧ c ≠ dottedI ∧ (lowerChar c = ',' ↔ c = ',') ∧
      isSpace (lowerChar c) = isSpace c := by
  have all : ∀ n < 128, isPlain (Char.ofNat n) = true ∧ Char.ofNat n ≠ dottedI ∧
      (lowerChar (Char.ofNat n) = ',' ↔ Char.ofNat n = ',') ∧
      isSpace (lowerChar (Char.ofNat n)) = isSpace (Char.ofNat n) := by decide
  have named := all c.toNat ascii
  rwa [Char.ofNat_toNat] at named

/-- One name in ASCII, with nothing around it, is taken for one name. -/
theorem alike_of_single (together : InOneDomain env token.user names)
    (ascii : ∀ c ∈ names, c.toNat < 128) (comma : ',' ∉ names) (stripped : strip names = names)
    (unreserved : names ≠ yes) : Alike env token.user names key := by
  have simple : Simple names := fun c inside =>
    ⟨(ascii_spec c (ascii c inside)).1, (ascii_spec c (ascii c inside)).2.1⟩
  have lower : unicode.lower names = names.map lowerChar := lower_of_simple simple
  have commaless : ',' ∉ names.map lowerChar := by
    intro inside
    obtain ⟨c, before, same⟩ := List.mem_map.mp inside
    have equal := (ascii_spec c (ascii c before)).2.2.1.mp same
    exact comma (equal ▸ before)
  have kept : strip (names.map lowerChar) = names.map lowerChar := by
    rw [strip_map fun c inside => (ascii_spec c (ascii c inside)).2.2.2, stripped]
  have listed : unicode.lower names ∈ sanitizeQnames unicode names := by
    rw [sanitizeQnames, lower, split_of_not_mem commaless, List.map_singleton, kept]
    exact List.mem_dedup.mpr (List.mem_singleton_self _)
  obtain ⟨d, found⟩ := together
  have known : Known env token.user names := List.ne_nil_of_mem (found _ listed)
  refine ⟨known, ?_, fun reserved => absurd reserved unreserved⟩
  rwa [latin1Decode_utf8Encode ascii]

/-- The ways to name hosts come to the same for the lists that authentication takes for one name
of the user, both as a text and as the bytes of the credentials; and these are single names. A
single name in ASCII is one of them, unless it is the reserved value. -/
theorem channels_equivalent_iff (casing : Casing unicode) (valid : env.tokens key = some token)
    (unrestricted : ∀ address, token.allowedSubnets address = true)
    (together : InOneDomain env token.user names) :
    (Equivalent env names key ↔ Alike env token.user names key) ∧
      (',' ∈ names → ¬ Equivalent env names key) ∧
      ((∀ c ∈ names, c.toNat < 128) → ',' ∉ names → strip names = names → names ≠ yes →
        Equivalent env names key) := by
  refine ⟨⟨alike_of_equivalent casing valid unrestricted together,
    equivalent_of_alike casing valid unrestricted together⟩, ?_, ?_⟩
  · intro comma equivalent
    exact not_known_of_comma casing comma
      (alike_of_equivalent casing valid unrestricted together equivalent).1
  · intro ascii comma stripped unreserved
    exact equivalent_of_alike casing valid unrestricted together
      (alike_of_single together ascii comma stripped unreserved)

end Equivalence

private theorem casing_plain : Casing Unicode.plain where
  narrow := narrow_plain
  keeps _ c inside _ _ lowered := List.mem_flatMap.mpr ⟨c, inside, lowered⟩

def sampleToken : Token := ⟨7, ⟨1, "user@mail.test".toList, by decide⟩, fun _ => true⟩

/-- A user with one domain and one token. -/
def sampleEnv : Environment Unicode.plain where
  domains := sampleDomains
  tokens key := if key = "secret".toList then some sampleToken else none
  urlsafe key token found := by
    have same : key = "secret".toList := by
      by_contra other
      rw [if_neg other] at found
      cases found
    rw [same]
    exact forall_mem_of_all (by decide)
  b64decode _ := none

/-- Two names of one domain are accepted as a parameter, but not as a user name. -/
theorem list_refused :
    ¬ Equivalent sampleEnv "a.example.com,b.example.com".toList "secret".toList := by
  intro equivalent
  have together : InOneDomain sampleEnv sampleToken.user "a.example.com,b.example.com".toList :=
    ⟨⟨"example.com".toList, 1⟩, by decide⟩
  have alike := alike_of_equivalent casing_plain rfl (fun _ => rfl) together equivalent
  exact not_known_of_comma casing_plain (by decide) alike.1

theorem single_accepted : Equivalent sampleEnv "*.Example.com".toList "secret".toList := by
  have together : InOneDomain sampleEnv sampleToken.user "*.Example.com".toList :=
    ⟨⟨"example.com".toList, 1⟩, by decide⟩
  exact (channels_equivalent_iff casing_plain rfl (fun _ => rfl) together).2.2
    (forall_mem_of_all (by decide)) (by decide) (by decide) (by decide)

end DesecStack.DynDns.Channels
