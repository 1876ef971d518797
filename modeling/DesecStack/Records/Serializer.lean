/- module: DesecStack/Records/Serializer
   source: api/desecapi/serializers/records.py, api/desecapi/validators.py
   digest: Validation of one RRset: fields, validators across fields, and the final check. -/

import DesecStack.Records.Fields
import DesecStack.Changes.Pdns
import Mathlib.Algebra.Ring.Nat
import Mathlib.Data.Char
import Mathlib.Data.Finset.Sort
import Mathlib.Data.List.Lex

set_option autoImplicit false
set_option relaxedAutoImplicit false

namespace DesecStack.Records.Serializer

open Library.PyText
open Library.Surrogates
open Names.Validators (validateLower validateUpper subnamePattern typePattern)
open Changes.Models (RRset Item RRsets cname subnameMaxLength typeMaxLength typesAutomatic)
open Changes.Pdns (constructName ns)
open Fields

/-- What dnspython contributes: the types it knows, the canonical form of a record or the text
of the error, the digestable wire form, and whether a name exceeds the limit of the DNS. -/
structure Dns where
  validationTypes : Finset Text
  canonical : (content type : Text) → Except Text Text
  wire : (type content : Text) → Text
  nameTooLong : (subname domain : Text) → Bool

/-- The context of a serializer: the domain with its stored RRsets, and the request. -/
structure Context where
  unicode : Unicode
  dns : Dns
  domainName : Text
  rrsets : RRsets
  minimumTtl : Nat
  isLocallyRegistrable : Bool
  blockedSubnet : (content : Text) → Bool
  hasObjectPermission : Item → Bool
  isPost : Bool
  subnameKwarg : Option Text

/-- What the fields of a serializer ask of its root: `many`, and the current `partial`. -/
structure Root where
  many : Bool
  isPartial : Bool

/-- The RRset that is updated, if any. -/
abbrev Instance := Option (Item × RRset)

/-- Validated data; absent keys are `none`. -/
structure Attrs where
  subname : Option Text
  records : Option (List Text)
  ttl : Option Int
  type : Option Text
  deriving DecidableEq

/-- `settings.MAXIMUM_TTL` -/
def maximumTtl : Int := 86400

def subnameKey : Text := "subname".toList

def typeKey : Text := "type".toList

def recordsKey : Text := "records".toList

def ttlKey : Text := "ttl".toList

def contentKey : Text := "content".toList

def nonFieldErrors : Text := "non_field_errors".toList

def readOnlyOnUpdate : Text := "Can only be written on create.".toList

def notLowercase (value : Text) : Text := "Invalid value (not lowercase): ".toList ++ value

def notUppercase (value : Text) : Text := "Invalid value (not uppercase): ".toList ++ value

def invalidSubname : Text :=
  ("Subname can only use (lowercase) a-z, 0-9, ., -, and _, may start with a '*.', or just be '*'. "
    ++ "Components may not exceed 63 characters.").toList

def invalidType : Text :=
  "Type must be uppercase alphanumeric and start with a letter.".toList

def nameTooLong : Text :=
  "This field combined with the domain name must not exceed 255 characters.".toList

def emptyOnPost : Text := "This field must not be empty when using POST.".toList

def mustBeString : Text := "Must be a string.".toList

/-- A validator that gives a message where a check fails. -/
def checking (check : Str → Bool) (message : Text → Text) (value : Str) : Option Text :=
  if check value then none else some (message value.shown)

def subnameField (unicode : Unicode) : CharField where
  allowBlank := true
  maxLength := some subnameMaxLength
  validators := [checking (Str.piecewise (validateLower unicode)) notLowercase,
    checking (Str.matching subnamePattern) fun _ => invalidSubname]

/-- `ReadOnlyOnUpdateValidator` on the field `type` -/
def readOnlyOnUpdateValidator (instance? : Instance) (value : Str) : Option Text :=
  if instance?.any (fun known => .text known.1.1 ≠ value) then some readOnlyOnUpdate else none

def typeField (unicode : Unicode) : CharField where
  allowBlank := false
  maxLength := some typeMaxLength
  validators := [checking (Str.piecewise (validateUpper unicode)) notUppercase,
    checking (Str.matching typePattern) fun _ => invalidType]

section Child

variable (ctx : Context) (root : Root) (instance? : Instance)

/-- `validate_subname` -/
def validateSubname (value : Text) : FieldResult Text :=
  if instance?.any (fun known => known.1.2 ≠ value) then fail readOnlyOnUpdate
  else if ctx.dns.nameTooLong value ctx.domainName then fail nameTooLong
  else .ok (some value)

/-- A field's own validation followed by the `validate_*` method of the serializer. -/
def andThen {α : Type} (field : FieldResult α) (method : α → FieldResult α) : FieldResult α :=
  match field with
  | .ok (some value) => method value
  | other => other

/-- The field `subname`, with `NonBulkOnlyDefault("")`. -/
def runSubname (data : List (Text × Json)) : FieldResult Text :=
  match data.lookup subnameKey with
  | none =>
      if root.isPartial then .ok none
      else if root.many || instance?.isSome then fail required
      else validateSubname ctx instance? []
  | some value =>
      andThen ((subnameField ctx.unicode).runValidation value) (validateSubname ctx instance?)

/-- The field `content` of a record. -/
def runContent (value : Json) : Except ItemDetail Text :=
  match (CharField.mk false none []).runValidation value with
  | .ok (some content) => .ok content
  | .ok none => .error .none
  | .error (.messages texts) => .error (.fields [(contentKey, texts)])
  | .error _ => .error .none

/-- `RRSerializer.run_validation` of one item. -/
def runRecord : Json → Except ItemDetail Text
  | .null => .error (.messages [notNull])
  | .str s => runContent (.str s)
  | .unencodable s => runContent (.unencodable s)
  | _ => .error (.messages [mustBeString])

def notAListOf (typeName : Text) : Text :=
  "Expected a list of items but got type \"".toList ++ typeName ++ "\".".toList

def itemErrors (results : List (Except ItemDetail Text)) : List ItemDetail :=
  results.map fun result => match result with | .ok _ => .none | .error detail => detail

def itemValues (results : List (Except ItemDetail Text)) : List Text :=
  results.filterMap Except.toOption

/-- `validate_records` -/
def validateRecords (value : List Text) : FieldResult (List Text) :=
  if ctx.isPost && value.isEmpty then fail emptyOnPost else .ok (some value)

/-- The field `records`. -/
def runRecords (data : List (Text × Json)) : FieldResult (List Text) :=
  match data.lookup recordsKey with
  | none => if root.isPartial then .ok none else fail required
  | some .null => fail notNull
  | some (.list items) =>
      let results := items.map runRecord
      if (itemErrors results).all (· = .none) then
        andThen (.ok (some (itemValues results))) (validateRecords ctx)
      else .error (.items (itemErrors results))
  | some other => .error (.fields [(nonFieldErrors, [notAListOf other.typeName])])

/-- The field `ttl`. -/
def runTtl (data : List (Text × Json)) : FieldResult Int :=
  match data.lookup ttlKey with
  | none => if root.isPartial then .ok none else fail required
  | some value =>
      integerFieldRunValidation ctx.unicode
        [maxValueValidator maximumTtl, minValueValidator ctx.minimumTtl] value

/-- `RR_SET_TYPES_UNSUPPORTED` -/
def typesUnsupported : List Text := ["ALIAS", "IPSECKEY", "KEY", "WKS"].map String.toList

/-- `RR_SET_TYPES_BACKEND` -/
def typesBackend : List Text :=
  ["A", "AAAA", "AFSDB", "ALIAS", "APL", "CAA", "CERT", "CDNSKEY", "CDS", "CNAME", "CSYNC",
    "DNSKEY", "DNAME", "DS", "HINFO", "HTTPS", "KEY", "LOC", "MX", "NAPTR", "NS", "NSEC",
    "NSEC3", "NSEC3PARAM", "OPENPGPKEY", "PTR", "RP", "RRSIG", "SOA", "SPF", "SSHFP", "SRV",
    "SVCB", "TLSA", "SMIMEA", "TXT", "URI", "DHCID", "DLV", "EUI48", "EUI64", "IPSECKEY", "KX",
    "MINFO", "MR", "RKEY", "WKS", "NID", "L32", "L64", "LP"].map String.toList

/-- `RR_SET_TYPES_MANAGEABLE` -/
def typesManageable (dns : Dns) (type : Text) : Bool :=
  typesBackend.contains type && type ∈ dns.validationTypes && !typesUnsupported.contains type &&
    !typesAutomatic.contains type

/-- `validate_type` -/
def validateType (value : Text) : FieldResult Text :=
  if typesManageable ctx.dns value then .ok (some value)
  else if typesAutomatic.contains value then
    fail ("You cannot tinker with the ".toList ++ value ++
      " RR set. It is managed automatically.".toList)
  else if startsWith value "TYPE".toList then fail "Generic type format is not supported.".toList
  else fail ("The ".toList ++ value ++ " RR set type is currently unsupported.".toList)

/-- The field `type`, with `ReadOnlyOnUpdateValidator` behind its other validators. -/
def runType (data : List (Text × Json)) : FieldResult Text :=
  match data.lookup typeKey with
  | none => if root.isPartial then .ok none else fail required
  | some value =>
      let field := typeField ctx.unicode
      let field := { field with
        validators := field.validators ++ [readOnlyOnUpdateValidator instance?] }
      andThen (field.runValidation value) (validateType ctx)

def fieldErrors {α : Type} (key : Text) : FieldResult α → Errors
  | .ok _ => []
  | .error detail => [(key, detail)]

def fieldValue {α : Type} : FieldResult α → Option α
  | .ok value => value
  | .error _ => none

/-- `to_internal_value` of the serializer: all fields are tried, in their order. -/
def toInternalValue (data : List (Text × Json)) : Outcome Attrs :=
  let subname := runSubname ctx root instance? data
  let records := runRecords ctx root data
  let ttl := runTtl ctx root data
  let type := runType ctx root instance? data
  match fieldErrors subnameKey subname ++ fieldErrors recordsKey records ++
      fieldErrors ttlKey ttl ++ fieldErrors typeKey type with
  | [] => .ok ⟨fieldValue subname, fieldValue records, fieldValue ttl, fieldValue type⟩
  | errors => .error (.invalid errors)

def nonFieldError {α : Type} (message : Text) : Outcome α :=
  .error (.invalid [(nonFieldErrors, .messages [message])])

/-- `attrs.get("type") or instance.type` -/
def typeOr (attrs : Attrs) : Outcome Text :=
  match attrs.type, instance? with
  | some (c :: rest), _ => .ok (c :: rest)
  | _, some known => .ok known.1.1
  | _, none => .error .attributeError

/-- The subname of the data, or that in the URL. -/
def subnameOr (attrs : Attrs) : Outcome Text :=
  match attrs.subname, ctx.subnameKwarg with
  | some subname, _ => .ok subname
  | none, some subname => .ok subname
  | none, none => .error .keyError

/-- `PermissionValidator` -/
def permissionValidator (attrs : Attrs) : Outcome Unit := do
  let subname ← subnameOr ctx attrs
  let type ← typeOr instance? attrs
  if ctx.hasObjectPermission (type, subname) then .ok () else .error .permissionDenied

def uniqueMessage : Text :=
  ("Another RRset with the same subdomain and type exists for this domain. "
    ++ "(Try modifying it.)").toList

/-- Attributes that a unique or exclusive check needs; on an update the missing ones are taken
from the instance. -/
def filled (attrs : Attrs) : Option Text × Option Text :=
  (attrs.subname.or (instance?.map fun known => known.1.2),
    attrs.type.or (instance?.map fun known => known.1.1))

/-- `UniqueTogetherValidator` for `subname` and `type`: the messages it raises. -/
def uniqueTogetherValidator (attrs : Attrs) : Outcome (List Text) :=
  match instance?, attrs.subname, attrs.type with
  | none, none, none =>
      .error (.invalid [(subnameKey, .messages [required]), (typeKey, .messages [required])])
  | none, none, some _ => .error (.invalid [(subnameKey, .messages [required])])
  | none, some _, none => .error (.invalid [(typeKey, .messages [required])])
  | none, some subname, some type =>
      .ok (if (type, subname) ∈ ctx.rrsets.keys then [uniqueMessage] else [])
  | some known, subname, type =>
      let item : Item := (type.getD known.1.1, subname.getD known.1.2)
      .ok (if item ≠ known.1 ∧ item ∈ ctx.rrsets.keys then [uniqueMessage] else [])

/-- The types that stand against a type at a subname: all but CNAME, or CNAME. -/
def conflictingTypes (rrsets : RRsets) (item : Item) : Finset Text :=
  (rrsets.keys.filter fun other =>
    other.2 = item.2 ∧ (other.1 = cname ↔ item.1 ≠ cname)).image Prod.fst

def exclusionMessage (where? : Text) : Text :=
  "RRset with conflicting type present at same subname: ".toList ++ where? ++
    ". (No other RRsets are allowed alongside CNAME.)".toList

def sortedTypes (types : Finset Text) : List Text := types.sort (· ≤ ·)

/-- `ExclusionConstraintValidator`, which leaves lists to the list serializer. The message lists the
types in the order of the query, which the database is free to choose; here they are sorted. -/
def exclusionConstraintValidator (attrs : Attrs) : Outcome (List Text) :=
  if root.many then .ok []
  else match instance?, filled instance? attrs with
    | none, (none, _) => .error (.invalid [(subnameKey, .messages [required])])
    | _, (some subname, some type) =>
        let others := instance?.elim ctx.rrsets fun known => ctx.rrsets.erase known.1
        let types := conflictingTypes others (type, subname)
        .ok (if types = ∅ then []
          else [exclusionMessage ("database (".toList ++ join ", ".toList (sortedTypes types) ++
            ")".toList)])
    | _, _ => .error .keyError

/-- `run_validators` of the serializer. -/
def runValidators (attrs : Attrs) : Outcome Unit := do
  permissionValidator ctx instance? attrs
  let unique ← uniqueTogetherValidator ctx instance? attrs
  let exclusion ← exclusionConstraintValidator ctx root instance? attrs
  match unique ++ exclusion with
  | [] => .ok ()
  | messages => .error (.invalid [(nonFieldErrors, .messages messages)])

def duplicateRecords : Text := "Duplicate: records must be semantically unique".toList

def cannotModifyNs : Text := "Cannot modify NS records for this domain.".toList

/-- `_validate_canonical_presentation` -/
def validateCanonicalPresentation (type : Text) (records : List Text) : Outcome (List Text) :=
  records.mapM fun content =>
    match ctx.dns.canonical content type with
    | .ok canonical => .ok canonical
    | .error message => nonFieldError message

/-- `_validate_ci_uniqueness` -/
def validateCiUniqueness (type : Text) (records : List Text) : Outcome Unit :=
  if 1 < records.length ∧ records.length ≠ (records.map (ctx.dns.wire type)).dedup.length then
    nonFieldError duplicateRecords
  else .ok ()

/-- The bound on the size of an RRset, counted on its presentation format. -/
def conservativeTotalLength (subname domainName : Text) (records : List Text) : Nat :=
  32 + (constructName subname domainName).length +
    (records.map fun content => 12 + content.length).sum + 256

def excessMessage (excess : Nat) : Text :=
  "Total length of RRset exceeds limit by ".toList ++ ofInt excess ++ " bytes.".toList

/-- `_validate_length` -/
def validateLength (attrs : Attrs) (records : List Text) : Outcome Unit :=
  let total := conservativeTotalLength (attrs.subname.getD []) ctx.domainName records
  if 65535 < total then nonFieldError (excessMessage (total - 65535)) else .ok ()

/-- `_validate_blocked_content` -/
def validateBlockedContent (type : Text) (records : List Text) : Outcome Unit :=
  if type = "A".toList ∧ ctx.isLocallyRegistrable = true then
    match records.find? ctx.blockedSubnet with
    | some content =>
        nonFieldError ("IP address ".toList ++ content ++ " not allowed.".toList)
    | none => .ok ()
  else .ok ()

/-- The check on `NS` at the end of `validate`. The default of `attrs.get` is evaluated before
the lookup, so it needs the instance even where the subname is given. -/
def validateNs (type : Text) (attrs : Attrs) : Outcome Unit :=
  if type = ns ∧ ctx.isLocallyRegistrable = true then
    if attrs.records ≠ some [] then .error (.invalid [(typeKey, .messages [cannotModifyNs])])
    else match instance? with
      | none => .error .attributeError
      | some known =>
          if attrs.subname.getD known.1.2 = [] then
            .error (.invalid [(typeKey, .messages [cannotModifyNs])])
          else .ok ()
  else .ok ()

/-- The checks of `validate` on records, which it replaces by their canonical forms. -/
def validateContents (type : Text) (attrs : Attrs) : Outcome (Option (List Text)) :=
  match attrs.records with
  | none => .ok none
  | some records => do
      let canonical ← validateCanonicalPresentation ctx type records
      validateCiUniqueness ctx type canonical
      validateLength ctx attrs canonical
      validateBlockedContent ctx type canonical
      pure (some canonical)

/-- `validate` -/
def validate (attrs : Attrs) : Outcome Attrs := do
  let type ← typeOr instance? attrs
  let records ← validateContents ctx type attrs
  let attrs := { attrs with records }
  validateNs ctx instance? type attrs
  pure attrs

/-- `run_validation` of the serializer on a dictionary. -/
def runValidation (data : List (Text × Json)) : Outcome Attrs := do
  let attrs ← toInternalValue ctx root instance? data
  runValidators ctx root instance? attrs
  validate ctx instance? attrs

end Child

end DesecStack.Records.Serializer
