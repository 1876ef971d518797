/- module: DesecStack/Records/Crashes
   layer: main results
   digest: When the validation of a list ends in an exception that is no answer to its rows. -/

import DesecStack.Records.Applied
import DesecStack.Records.Child

set_option autoImplicit false
set_option relaxedAutoImplicit false

namespace DesecStack.Records.Crashes

open Library.PyText
open Library.Surrogates
open Library.Runs (bind_eq_ok_iff bind_eq_error_iff mapM_eq_ok_iff mapM_eq_error_iff)
open Changes.Models
open Changes.Pdns (ns constructName)
open Fields
open Serializer
open ListSerializer
open Save (Env Session keyOf isEmpty)
open Rows Validated Child Accepted
open BulkExact (Method bulkRequest storedItem keyOf_validated)

/-- The validation of the fields of a row. -/
def fieldsOf (request : Request) (data : Entries) : Outcome Attrs :=
  Serializer.toInternalValue request.ctx (rowRoot request data)
    (knownInstance request (keyOfRow data)) data

/-- The other rows and the database leave a row to its own validation. -/
def Unclashing (request : Request) (rows : List Json) (position : Nat) (data : Entries) : Prop :=
  ¬ Duplicate id rows position data ∧
    (isEmptyRow data = true ∨ ¬ Excluded id request.ctx.rrsets rows data ∧ ¬ Nameless rows data)

/-- A row with valid fields, for an RRset that may not be written. -/
def Denied (request : Request) (rows : List Json) (position : Nat) (data : Entries) : Prop :=
  Unclashing request rows position data ∧ ∃ attrs subname type,
    fieldsOf request data = .ok attrs ∧ attrs.subname = some subname ∧ attrs.type = some type ∧
      request.ctx.hasObjectPermission (type, subname) = false

/-- A row at which validation breaks off: one beside a row without type that is in its way; an
emptied one without subname or type; or an emptied NS row for an RRset that is not there, in a
domain that is locally registrable. -/
inductive Crashing (request : Request) (rows : List Json) (position : Nat) (data : Entries) :
    Prop where
  | untyped (apart : ¬ Duplicate id rows position data) (nonempty : isEmptyRow data = false)
      (nameless : Nameless rows data)
  | keyless (apart : ¬ Duplicate id rows position data) (empty : isEmptyRow data = true)
      (attrs : Attrs) (valid : fieldsOf request data = .ok attrs)
      (missing : attrs.subname = none ∨ attrs.type = none)
  | nsRow (apart : ¬ Duplicate id rows position data) (empty : isEmptyRow data = true)
      (attrs : Attrs) (valid : fieldsOf request data = .ok attrs) (subname : Text)
      (given : attrs.subname = some subname) (isNs : attrs.type = some ns)
      (permitted : request.ctx.hasObjectPermission (ns, subname) = true)
      (new : (ns, subname) ∉ request.ctx.rrsets.keys)
      (registrable : request.ctx.isLocallyRegistrable = true)

/-- The database cannot be asked for the RRsets at the subname of a row: it has a surrogate or a
NUL. -/
def Unaskable (data : Entries) : Prop :=
  (∃ s, strOf data subnameKey = some (.unencodable s)) ∨
    ∃ s, strOf data subnameKey = some (.text s) ∧ Char.ofNat 0 ∈ s

/-- An exception that views do not turn into an answer. -/
def Accident (raised : Raised) : Prop :=
  raised ≠ .permissionDenied ∧ ¬ ∃ errors, raised = .invalid errors

private theorem kind_of_not_invalid {raised : Raised}
    (other : ¬ ∃ errors, raised = .invalid errors) :
    raised = .permissionDenied ∨ Accident raised :=
  (em (raised = .permissionDenied)).imp_right fun differs => ⟨differs, other⟩

private theorem accident_of_queryError {row : Json} {raised : Raised}
    (failed : queryError row = some raised) : Accident raised := by
  unfold queryError at failed
  split at failed
  · obtain rfl := Option.some.inj failed
    simp [Accident]
  · obtain ⟨-, same⟩ := Option.ite_none_right_eq_some.mp failed
    obtain rfl := Option.some.inj same
    simp [Accident]
  · cases failed

/-- The database answers all queries exactly if no subname is out of its reach. -/
theorem answered_iff {rows : List Json} : rows.findSome? queryError = none ↔
    ∀ position data, RowAt rows position data → ¬ Unaskable data := by
  have own (row : Json) :
      queryError row = none ↔ ∀ data, shape row = .ok data → ¬ Unaskable data := by
    cases shaped : shape row with
    | error errors => simp [queryError, shaped, Except.toOption]
    | ok data =>
      simp only [queryError, shaped, Except.toOption, Option.bind_some, Except.ok.injEq,
        forall_eq', Unaskable]
      cases strOf data subnameKey with
      | none => simp
      | some s => cases s <;> simp
  rw [List.findSome?_eq_none_iff]
  constructor
  · rintro answered position data ⟨row, found, shaped⟩
    exact (own row).mp (answered row (List.mem_of_getElem? found)) data shaped
  · intro askable row member
    obtain ⟨position, found⟩ := List.getElem?_of_mem member
    exact (own row).mpr fun data shaped => askable position data ⟨row, found, shaped⟩

section Row

variable {request : Request} {row : Json} {data : Entries} {attrs : Attrs}

private theorem raised_of_fieldsOf {raised : Raised}
    (failed : fieldsOf request data = .error raised) :
    ∃ errors, raised = .invalid errors := by
  simp only [fieldsOf, Serializer.toInternalValue] at failed
  split at failed
  · exact absurd failed (by simp)
  · exact ⟨_, (Except.error.inj failed).symm⟩

private theorem validateSubname_ne_none {ctx : Context} {instance? : Instance} {value : Text} :
    validateSubname ctx instance? value ≠ .ok none := by
  unfold validateSubname
  split
  · simp [fail]
  · split <;> simp [fail]

private theorem validateType_ne_none {ctx : Context} {value : Text} :
    validateType ctx value ≠ .ok none := by
  unfold validateType
  split
  · simp
  · split
    · simp [fail]
    · split <;> simp [fail]

private theorem andThen_ne_none {α : Type} {field : FieldResult α} {method : α → FieldResult α}
    (given : field ≠ .ok none) (kept : ∀ value, method value ≠ .ok none) :
    andThen field method ≠ .ok none := by
  unfold andThen
  split
  · exact kept _
  · exact given

private theorem absent_of_runSubname {ctx : Context} {root : Root} {instance? : Instance}
    (many : root.many = true) (done : runSubname ctx root instance? data = .ok none) :
    data.lookup subnameKey = none ∧ root.isPartial = true := by
  unfold runSubname at done
  split at done
  · next absent =>
    split at done
    · next isPartial => exact ⟨absent, isPartial⟩
    · simp [many, fail] at done
  · exact absurd done (andThen_ne_none charField_ne_none fun _ => validateSubname_ne_none)

private theorem partial_of_runType {ctx : Context} {root : Root} {instance? : Instance}
    (done : runType ctx root instance? data = .ok none) :
    data.lookup typeKey = none ∧ root.isPartial = true := by
  unfold runType at done
  split at done
  · next absent =>
    split at done
    · next isPartial => exact ⟨absent, isPartial⟩
    · exact absurd done (by simp [fail])
  · exact absurd done (andThen_ne_none charField_ne_none fun _ => validateType_ne_none)

private theorem unknown_of_missing (valid : fieldsOf request data = .ok attrs)
    (missing : attrs.subname = none ∨ attrs.type = none) :
    knownInstance request (keyOfRow data) = none ∧ isEmptyRow data = true := by
  obtain ⟨subnameDone, -, -, typeDone⟩ := fields_of_toInternalValue valid
  have keyless : (strOf data subnameKey = none ∨ strOf data typeKey = none) ∧
      (rowRoot request data).isPartial = true := by
    rcases missing with absent | absent
    · rw [absent] at subnameDone
      obtain ⟨notThere, isPartial⟩ := absent_of_runSubname rfl subnameDone
      exact ⟨Or.inl (by simp [strOf, notThere]), isPartial⟩
    · rw [absent] at typeDone
      obtain ⟨notThere, isPartial⟩ := partial_of_runType typeDone
      exact ⟨Or.inr (by simp [strOf, notThere]), isPartial⟩
  have unknown : knownInstance request (keyOfRow data) = none := by
    unfold knownInstance keyOfRow
    rcases keyless.1 with absent | absent
    · simp [absent]
    · rw [absent]
      split
      · next same => cases (Prod.mk.inj same).2
      · rfl
  refine ⟨unknown, ?_⟩
  simpa [rowRoot, unknown] using (Bool.and_eq_true_iff.mp keyless.2).2

private theorem typeOr_given {instance? : Instance} {type : Text}
    (valid : fieldsOf request data = .ok attrs)
    (given : attrs.type = some type) : typeOr instance? attrs = .ok type := by
  obtain ⟨-, -, -, typeDone⟩ := fields_of_toInternalValue valid
  rw [given] at typeDone
  have manageable := (type_of_child typeDone).1
  cases type with
  | nil => exact absurd manageable (by simp [typesManageable, typesBackend])
  | cons c rest => simp [typeOr, given]

private theorem permissionValidator_eq (listView : request.ctx.subnameKwarg = none)
    (valid : fieldsOf request data = .ok attrs) :
    permissionValidator request.ctx (knownInstance request (keyOfRow data)) attrs
      = match attrs.subname, attrs.type with
        | none, _ => .error .keyError
        | some _, none => .error .attributeError
        | some subname, some type =>
            if request.ctx.hasObjectPermission (type, subname) then .ok ()
            else .error .permissionDenied := by
  cases isSubname : attrs.subname with
  | none => simp [permissionValidator, subnameOr, isSubname, listView, bind, Except.bind]
  | some subname =>
    cases isType : attrs.type with
    | none =>
      obtain ⟨unknown, -⟩ := unknown_of_missing valid (Or.inr isType)
      simp [permissionValidator, subnameOr, typeOr, isSubname, isType, unknown, bind, Except.bind]
    | some type =>
      simp [permissionValidator, subnameOr, isSubname, typeOr_given valid isType, bind, Except.bind]

private theorem item_of_known {subname type : Text} (valid : fieldsOf request data = .ok attrs)
    (isSubname : attrs.subname = some subname) (isType : attrs.type = some type)
    {known : Item × RRset} (found : knownInstance request (keyOfRow data) = some known) :
    known.1 = (type, subname) := by
  obtain ⟨subnameDone, -, -, typeDone⟩ := fields_of_toInternalValue valid
  rw [isSubname] at subnameDone
  rw [isType] at typeDone
  exact Prod.ext ((type_of_child typeDone).2 known found) (subname_of_child subnameDone known found)

private theorem unknown_of_new {subname type : Text} (valid : fieldsOf request data = .ok attrs)
    (isSubname : attrs.subname = some subname) (isType : attrs.type = some type)
    (new : (type, subname) ∉ request.ctx.rrsets.keys) :
    knownInstance request (keyOfRow data) = none := by
  by_contra found
  obtain ⟨known, isKnown⟩ := Option.ne_none_iff_exists'.mp found
  obtain ⟨-, -, stored⟩ := knownInstance_some isKnown
  rw [item_of_known valid isSubname isType isKnown] at stored
  exact new (Finmap.mem_keys.mpr (Finmap.lookup_isSome.mp (by rw [stored]; rfl)))

private theorem runValidators_eq (listView : request.ctx.subnameKwarg = none) {subname type : Text}
    (valid : fieldsOf request data = .ok attrs) (isSubname : attrs.subname = some subname)
    (isType : attrs.type = some type)
    (permitted : request.ctx.hasObjectPermission (type, subname) = true) :
    Serializer.runValidators request.ctx (rowRoot request data)
        (knownInstance request (keyOfRow data)) attrs
      = if knownInstance request (keyOfRow data) = none ∧ (type, subname) ∈ request.ctx.rrsets.keys
        then .error (.invalid [(nonFieldErrors, .messages [uniqueMessage])]) else .ok () := by
  have allowed := permissionValidator_eq listView valid
  simp only [isSubname, isType, permitted, if_true] at allowed
  have many : exclusionConstraintValidator request.ctx (rowRoot request data)
      (knownInstance request (keyOfRow data)) attrs = .ok [] := by
    simp [exclusionConstraintValidator, rowRoot]
  have unique : uniqueTogetherValidator request.ctx (knownInstance request (keyOfRow data)) attrs
      = .ok (if knownInstance request (keyOfRow data) = none ∧
          (type, subname) ∈ request.ctx.rrsets.keys then [uniqueMessage] else []) := by
    cases found : knownInstance request (keyOfRow data) with
    | none => simp [uniqueTogetherValidator, isSubname, isType]
    | some known =>
      have same := (item_of_known valid isSubname isType found).symm
      simp [uniqueTogetherValidator, isSubname, isType, same]
  simp only [Serializer.runValidators, allowed, unique, many, bind, Except.bind, List.append_nil]
  by_cases stored : knownInstance request (keyOfRow data) = none ∧
      (type, subname) ∈ request.ctx.rrsets.keys
  · rw [if_pos stored]
    simp [stored]
  · rw [if_neg stored]
    simp [stored]

private theorem raised_of_canonical {ctx : Context} {type : Text} {records : List Text}
    {raised : Raised} (failed : validateCanonicalPresentation ctx type records = .error raised) :
    ∃ errors, raised = .invalid errors := by
  obtain ⟨-, content, -, failed, -⟩ := mapM_eq_error_iff.mp failed
  split at failed
  · exact absurd failed (by simp)
  · exact ⟨_, (Except.error.inj failed).symm⟩

private theorem raised_of_validateContents {ctx : Context} {type : Text} {raised : Raised}
    (failed : validateContents ctx type attrs = .error raised) :
    ∃ errors, raised = .invalid errors := by
  unfold validateContents at failed
  split at failed
  · exact absurd failed (by simp)
  · next records _ =>
    rcases bind_eq_error_iff.mp failed with failed | ⟨canonical, -, failed⟩
    · exact raised_of_canonical failed
    rcases bind_eq_error_iff.mp failed with failed | ⟨_, -, failed⟩
    · unfold validateCiUniqueness at failed
      split at failed
      · exact ⟨_, (Except.error.inj failed).symm⟩
      · exact absurd failed (by simp)
    rcases bind_eq_error_iff.mp failed with failed | ⟨_, -, failed⟩
    · unfold validateLength at failed
      dsimp only at failed
      split at failed
      · exact ⟨_, (Except.error.inj failed).symm⟩
      · exact absurd failed (by simp)
    rcases bind_eq_error_iff.mp failed with failed | ⟨_, -, failed⟩
    · unfold validateBlockedContent at failed
      split at failed
      · split at failed
        · exact ⟨_, (Except.error.inj failed).symm⟩
        · exact absurd failed (by simp)
      · exact absurd failed (by simp)
    · exact absurd failed (by simp [pure, Except.pure])

private theorem length_constructName_le (subname name : Text) :
    (constructName subname name).length ≤ subname.length + name.length + 2 := by
  by_cases isApex : subname = []
  · by_cases isRoot : name = []
    · simp [constructName, join, isApex, isRoot]
    · simp [constructName, join, isApex, isRoot]
  · by_cases isRoot : name = []
    · simp [constructName, join, isApex, isRoot]
    · simp [constructName, join, isApex, isRoot, List.intercalate_cons_cons]
      omega

private theorem validateContents_empty (bounded : request.ctx.domainName.length ≤ nameMaxLength)
    (shaped : shape row = .ok data) (valid : fieldsOf request data = .ok attrs) {subname : Text}
    (isSubname : attrs.subname = some subname) (empty : attrs.records = some []) (type : Text) :
    validateContents request.ctx type attrs = .ok (some []) := by
  obtain ⟨subnameDone, -, -, -⟩ := fields_of_toInternalValue valid
  rw [isSubname] at subnameDone
  obtain ⟨s, -, same, -, short, -⟩ := subname_of_runSubname rfl shaped subnameDone
  have long := length_constructName_le subname request.ctx.domainName
  have fits : ¬ 65535 < conservativeTotalLength subname request.ctx.domainName [] := by
    simp only [conservativeTotalLength, List.map_nil, List.sum_nil]
    simp only [subnameMaxLength, nameMaxLength, ← same] at short bounded
    omega
  simp [validateContents, empty, validateCanonicalPresentation, validateCiUniqueness,
    validateLength, isSubname, fits, validateBlockedContent, bind, Except.bind, pure, Except.pure]

private theorem not_accident_invalid {raised : Raised}
    (isInvalid : ∃ errors, raised = .invalid errors) : ¬ Accident raised := by
  obtain ⟨errors, rfl⟩ := isInvalid
  simp [Accident]

private theorem empty_iff_of_fieldsOf (valid : fieldsOf request data = .ok attrs) :
    attrs.records = some [] ↔ isEmptyRow data = true := by
  obtain ⟨-, recordsDone, -, -⟩ := fields_of_toInternalValue valid
  rcases records_of_runRecords recordsDone with ⟨absent, nonempty, -⟩ | ⟨values, given, iff, -⟩
  · simp [absent, nonempty]
  · simp [given, iff]

private theorem raised_of_validate {ctx : Context} {instance? : Instance} {type : Text}
    {raised : Raised}
    (typed : typeOr instance? attrs = .ok type)
    (failed : validate ctx instance? attrs = .error raised) :
    raised = .attributeError ∨ ∃ errors, raised = .invalid errors := by
  rcases bind_eq_error_iff.mp failed with failed | ⟨other, -, failed⟩
  · exact absurd (typed.symm.trans failed) (by simp)
  rcases bind_eq_error_iff.mp failed with failed | ⟨records, -, failed⟩
  · exact Or.inr (raised_of_validateContents failed)
  rcases bind_eq_error_iff.mp failed with failed | ⟨_, -, failed⟩
  · unfold validateNs at failed
    split at failed
    · split at failed
      · exact Or.inr ⟨_, (Except.error.inj failed).symm⟩
      · split at failed
        · exact Or.inl (Except.error.inj failed).symm
        · split at failed
          · exact Or.inr ⟨_, (Except.error.inj failed).symm⟩
          · exact absurd failed (by simp)
    · exact absurd failed (by simp)
  · exact absurd failed (by simp [pure, Except.pure])

private theorem validate_accident_iff (bounded : request.ctx.domainName.length ≤ nameMaxLength)
    (shaped : shape row = .ok data) (valid : fieldsOf request data = .ok attrs)
    {subname type : Text} (isSubname : attrs.subname = some subname)
    (isType : attrs.type = some type) {instance? : Instance} :
    (∃ raised, validate request.ctx instance? attrs = .error raised ∧ Accident raised) ↔
      type = ns ∧ request.ctx.isLocallyRegistrable = true ∧ isEmptyRow data = true ∧
        instance? = none := by
  have typed : typeOr instance? attrs = .ok type := typeOr_given valid isType
  constructor
  · rintro ⟨raised, failed, accident⟩
    rcases bind_eq_error_iff.mp failed with failed | ⟨other, isOther, failed⟩
    · exact absurd (typed.symm.trans failed) (by simp)
    obtain rfl := Except.ok.inj (typed.symm.trans isOther)
    rcases bind_eq_error_iff.mp failed with failed | ⟨records, contents, failed⟩
    · exact absurd accident (not_accident_invalid (raised_of_validateContents failed))
    rcases bind_eq_error_iff.mp failed with failed | ⟨_, -, failed⟩
    · unfold validateNs at failed
      split at failed
      · next locked =>
        split at failed
        · exact absurd accident (not_accident_invalid ⟨_, (Except.error.inj failed).symm⟩)
        · next empty =>
          split at failed
          · refine ⟨locked.1, locked.2, (empty_iff_of_fieldsOf valid).mp ?_, rfl⟩
            exact (records_of_validateContents contents).2.mp (not_not.mp empty)
          · split at failed
            · exact absurd accident (not_accident_invalid ⟨_, (Except.error.inj failed).symm⟩)
            · exact absurd failed (by simp)
      · exact absurd failed (by simp)
    · exact absurd failed (by simp [pure, Except.pure])
  · rintro ⟨isNs, registrable, empty, isNew⟩
    have contents := validateContents_empty bounded shaped valid isSubname
      ((empty_iff_of_fieldsOf valid).mpr empty) type
    refine ⟨.attributeError, ?_, by simp [Accident]⟩
    subst isNs isNew
    simp [validate, typed, contents, validateNs, registrable, bind, Except.bind]

private theorem validateRow_of_fieldsOf (valid : fieldsOf request data = .ok attrs) :
    validateRow request data = (do
      Serializer.runValidators request.ctx (rowRoot request data)
        (knownInstance request (keyOfRow data)) attrs
      validate request.ctx (knownInstance request (keyOfRow data)) attrs) := by
  change fieldsOf request data >>= _ = _
  rw [valid]
  rfl

private theorem validateRow_of_denied {raised : Raised} (valid : fieldsOf request data = .ok attrs)
    (denied : permissionValidator request.ctx (knownInstance request (keyOfRow data)) attrs
      = .error raised) : validateRow request data = .error raised := by
  rw [validateRow_of_fieldsOf valid]
  simp [Serializer.runValidators, denied, bind, Except.bind]

private theorem validateRow_accident_iff (listView : request.ctx.subnameKwarg = none)
    (bounded : request.ctx.domainName.length ≤ nameMaxLength) (shaped : shape row = .ok data) :
    (∃ raised, validateRow request data = .error raised ∧ Accident raised) ↔
      ∃ attrs, fieldsOf request data = .ok attrs ∧ isEmptyRow data = true ∧
        ((attrs.subname = none ∨ attrs.type = none) ∨
          ∃ subname, attrs.subname = some subname ∧ attrs.type = some ns ∧
            request.ctx.hasObjectPermission (ns, subname) = true ∧
            (ns, subname) ∉ request.ctx.rrsets.keys ∧ request.ctx.isLocallyRegistrable = true) := by
  constructor
  · rintro ⟨raised, failed, accident⟩
    rcases bind_eq_error_iff.mp failed with failed | ⟨attrs, valid, -⟩
    · exact absurd accident (not_accident_invalid (raised_of_fieldsOf failed))
    refine ⟨attrs, valid, ?_⟩
    have permission := permissionValidator_eq listView valid
    cases isSubname : attrs.subname with
    | none => exact ⟨(unknown_of_missing valid (Or.inl isSubname)).2, Or.inl (Or.inl rfl)⟩
    | some subname =>
      cases isType : attrs.type with
      | none => exact ⟨(unknown_of_missing valid (Or.inr isType)).2, Or.inl (Or.inr rfl)⟩
      | some type =>
        cases permitted : request.ctx.hasObjectPermission (type, subname) with
        | false =>
          simp only [isSubname, isType, permitted, Bool.false_eq_true, if_false] at permission
          rw [validateRow_of_denied valid permission] at failed
          obtain rfl := Except.error.inj failed
          exact absurd accident (by simp [Accident])
        | true =>
          have passed := runValidators_eq listView valid isSubname isType permitted
          rw [validateRow_of_fieldsOf valid, passed] at failed
          split at failed
          · obtain rfl := Except.error.inj failed
            exact absurd accident (not_accident_invalid ⟨_, rfl⟩)
          · next fresh =>
            obtain ⟨rfl, registrable, empty, unknown⟩ :=
              (validate_accident_iff bounded shaped valid isSubname isType).mp
                ⟨raised, failed, accident⟩
            exact ⟨empty, Or.inr ⟨subname, rfl, rfl, permitted,
              fun stored => fresh ⟨unknown, stored⟩,
              registrable⟩⟩
  · rintro ⟨attrs, valid, empty,
      missing | ⟨subname, isSubname, isType, permitted, new, registrable⟩⟩
    · have permission := permissionValidator_eq listView valid
      cases isSubname : attrs.subname with
      | none =>
        simp only [isSubname] at permission
        exact ⟨_, validateRow_of_denied valid permission, by simp [Accident]⟩
      | some subname =>
        have isType := missing.resolve_left (by simp [isSubname])
        simp only [isSubname, isType] at permission
        exact ⟨_, validateRow_of_denied valid permission, by simp [Accident]⟩
    · have passed := runValidators_eq listView valid isSubname isType permitted
      rw [if_neg fun stored => new stored.2] at passed
      have unknown := unknown_of_new valid isSubname isType new
      obtain ⟨raised, failed, accident⟩ :=
        (validate_accident_iff bounded shaped valid isSubname isType).mpr
          ⟨rfl, registrable, empty, unknown⟩
      exact ⟨raised, by rw [validateRow_of_fieldsOf valid, passed]; exact failed, accident⟩

private theorem validateRow_denied_iff (listView : request.ctx.subnameKwarg = none) :
    validateRow request data = .error .permissionDenied ↔ ∃ attrs subname type,
      fieldsOf request data = .ok attrs ∧ attrs.subname = some subname ∧ attrs.type = some type ∧
        request.ctx.hasObjectPermission (type, subname) = false := by
  constructor
  · intro failed
    rcases bind_eq_error_iff.mp failed with failed | ⟨attrs, valid, -⟩
    · obtain ⟨errors, impossible⟩ := raised_of_fieldsOf failed
      exact absurd impossible (by simp)
    have permission := permissionValidator_eq listView valid
    cases isSubname : attrs.subname with
    | none =>
      simp only [isSubname] at permission
      exact absurd (failed.symm.trans (validateRow_of_denied valid permission)) (by simp)
    | some subname =>
      cases isType : attrs.type with
      | none =>
        simp only [isSubname, isType] at permission
        exact absurd (failed.symm.trans (validateRow_of_denied valid permission)) (by simp)
      | some type =>
        refine ⟨attrs, subname, type, valid, isSubname, isType, ?_⟩
        by_contra permitted
        have passed := runValidators_eq listView valid isSubname isType (by simpa using permitted)
        rw [validateRow_of_fieldsOf valid, passed] at failed
        split at failed
        · exact absurd failed (by simp [bind, Except.bind])
        · rcases raised_of_validate (typeOr_given valid isType) failed with other | ⟨_, other⟩ <;>
            exact absurd other (by simp)
  · rintro ⟨attrs, subname, type, valid, isSubname, isType, forbidden⟩
    have permission := permissionValidator_eq listView valid
    simp only [isSubname, isType, forbidden, Bool.false_eq_true, if_false] at permission
    exact validateRow_of_denied valid permission

end Row

section Rows

variable {request : Request} {rows : List Json} {position : Nat} {data : Entries}

/-- The check and the validation of a row of a list. -/
def outcomeOf (request : Request) (rows : List Json) (position : Nat) (data : Entries) :
    Outcome Attrs :=
  runRow request (indices request.ctx.rrsets rows) (collapsedIndices request.ctx.rrsets rows)
    position data

private theorem outcomeOf_denied_iff (listView : request.ctx.subnameKwarg = none)
    (here : RowAt rows position data) :
    outcomeOf request rows position data = .error .permissionDenied ↔
      Denied request rows position data := by
  rw [outcomeOf, runRow, bind_eq_error_iff, Denied, Unclashing,
    ← checkRow_ok_iff request.ctx.rrsets here, ← validateRow_denied_iff listView]
  constructor
  · rintro (failed | ⟨_, checked, failed⟩)
    · rcases raised_of_checkRow failed with other | ⟨_, other⟩ <;> exact absurd other (by simp)
    · exact ⟨checked, failed⟩
  · rintro ⟨checked, failed⟩
    exact Or.inr ⟨(), checked, failed⟩

private theorem outcomeOf_accident_iff (listView : request.ctx.subnameKwarg = none)
    (bounded : request.ctx.domainName.length ≤ nameMaxLength) (here : RowAt rows position data) :
    (∃ raised, outcomeOf request rows position data = .error raised ∧ Accident raised) ↔
      Crashing request rows position data := by
  obtain ⟨row, found, shaped⟩ := here
  have here : RowAt rows position data := ⟨row, found, shaped⟩
  constructor
  · rintro ⟨raised, failed, accident⟩
    rcases bind_eq_error_iff.mp failed with failed | ⟨_, checked, failed⟩
    · rcases raised_of_checkRow failed with rfl | isInvalid
      · obtain ⟨apart, nonempty, nameless⟩ :=
          (checkRow_typeError_iff request.ctx.rrsets here).mp failed
        exact .untyped apart nonempty nameless
      · exact absurd accident (not_accident_invalid isInvalid)
    · have apart := ((checkRow_ok_iff request.ctx.rrsets here).mp checked).1
      obtain ⟨attrs, valid, empty, missing | ⟨subname, given, isNs, permitted, new, registrable⟩⟩ :=
        (validateRow_accident_iff listView bounded shaped).mp ⟨raised, failed, accident⟩
      · exact .keyless apart empty attrs valid missing
      · exact .nsRow apart empty attrs valid subname given isNs permitted new registrable
  · have unchecked (apart : ¬ Duplicate id rows position data) (empty : isEmptyRow data = true)
        (validation : ∃ raised, validateRow request data = .error raised ∧ Accident raised) :
        ∃ raised, outcomeOf request rows position data = .error raised ∧ Accident raised := by
      obtain ⟨raised, failed, accident⟩ := validation
      have checked := (checkRow_ok_iff request.ctx.rrsets here).mpr ⟨apart, Or.inl empty⟩
      exact ⟨raised, bind_eq_error_iff.mpr (Or.inr ⟨(), checked, failed⟩), accident⟩
    intro crashing
    cases crashing with
    | untyped apart nonempty nameless =>
      have failed := (checkRow_typeError_iff request.ctx.rrsets here).mpr
        ⟨apart, nonempty, nameless⟩
      exact ⟨.typeError, bind_eq_error_iff.mpr (Or.inl failed), by simp [Accident]⟩
    | keyless apart empty attrs valid missing =>
      exact unchecked apart empty ((validateRow_accident_iff listView bounded shaped).mpr
        ⟨attrs, valid, empty, Or.inl missing⟩)
    | nsRow apart empty attrs valid subname given isNs permitted new registrable =>
      exact unchecked apart empty ((validateRow_accident_iff listView bounded shaped).mpr
        ⟨attrs, valid, empty, Or.inr ⟨subname, given, isNs, permitted, new, registrable⟩⟩)

private theorem rowResult_error_iff {row : Nat × Json} {raised : Raised} :
    rowResult request (indices request.ctx.rrsets rows) (collapsedIndices request.ctx.rrsets rows)
        row = .error raised ↔
      ∃ data, shape row.2 = .ok data ∧ outcomeOf request rows row.1 data = .error raised ∧
        (raised = .permissionDenied ∨ Accident raised) := by
  unfold rowResult
  cases shaped : shape row.2 with
  | error errors => simp
  | ok data =>
    simp only [Except.ok.injEq, exists_eq_left']
    change collect (outcomeOf request rows row.1 data) = _ ↔ _
    cases outcomeOf request rows row.1 data with
    | ok attrs => simp [collect]
    | error other =>
      cases other <;> simp [collect, Accident, eq_comm]
      all_goals rintro rfl; simp

private theorem numbered_getElem? (rows : List Json) (i : Nat) :
    (numbered rows)[i]? = rows[i]?.map fun row => (i, row) := by
  rw [numbered, List.getElem?_map, List.getElem?_zipIdx, Option.map_map]
  exact congrArg (Option.map · rows[i]?) (funext fun row => by simp)

/-- The check of a list ends in an exception that is no validation error with the first row that
does so. -/
theorem escaped_iff {raised : Raised} :
    checkRows request rows = .error (.escaped raised) ↔
      ∃ position data, RowAt rows position data ∧
        outcomeOf request rows position data = .error raised ∧
        (raised = .permissionDenied ∨ Accident raised) ∧
        ∀ earlier < position, ∀ other, RowAt rows earlier other →
          ∀ e, outcomeOf request rows earlier other = .error e → ∃ errors, e = .invalid errors := by
  have loop : checkRows request rows = .error (.escaped raised) ↔
      (numbered rows).mapM (rowResult request (indices request.ctx.rrsets rows)
        (collapsedIndices request.ctx.rrsets rows)) = .error raised := by
    simp only [checkRows]
    split
    · next failed => simp [failed]
    · next results done =>
      rw [done]
      split <;> simp
  rw [loop, mapM_eq_error_iff]
  simp only [numbered_getElem?, Option.map_eq_some_iff, rowResult_error_iff]
  constructor
  · rintro ⟨position, _, ⟨row, found, rfl⟩, ⟨data, shaped, failed, kind⟩, before⟩
    refine ⟨position, data, ⟨row, found, shaped⟩, failed, kind, ?_⟩
    intro earlier less other there e bad
    obtain ⟨row', found', shaped'⟩ := there
    obtain ⟨result, fine⟩ := before earlier less _ ⟨row', found', rfl⟩
    by_contra escaping
    have bad' : rowResult request (indices request.ctx.rrsets rows)
        (collapsedIndices request.ctx.rrsets rows) (earlier, row') = .error e :=
      rowResult_error_iff.mpr ⟨other, shaped', bad, kind_of_not_invalid escaping⟩
    exact absurd (fine.symm.trans bad') (by simp)
  · rintro ⟨position, data, ⟨row, found, shaped⟩, failed, kind, before⟩
    refine ⟨position, _, ⟨row, found, rfl⟩, ⟨data, shaped, failed, kind⟩, ?_⟩
    rintro earlier less _ ⟨row', found', rfl⟩
    cases ran : rowResult request (indices request.ctx.rrsets rows)
        (collapsedIndices request.ctx.rrsets rows) (earlier, row') with
    | ok result => exact ⟨result, rfl⟩
    | error e =>
      obtain ⟨other, shaped', bad, kind'⟩ := rowResult_error_iff.mp ran
      obtain ⟨errors, rfl⟩ := before earlier less other ⟨row', found', shaped'⟩ e bad
      exact absurd kind' (by simp [Accident])

end Rows

section Answers

variable {request : Request} {rows : List Json}

private theorem results_of_mapM {results : List (Except Errors Attrs)}
    (done : (numbered rows).mapM (rowResult request (indices request.ctx.rrsets rows)
      (collapsedIndices request.ctx.rrsets rows)) = .ok results) :
    results.length = rows.length ∧ ∀ position row, rows[position]? = some row →
      ∃ result, results[position]? = some result ∧
        rowResult request (indices request.ctx.rrsets rows)
          (collapsedIndices request.ctx.rrsets rows) (position, row) = .ok result := by
  obtain ⟨length, each⟩ := List.forall₂_iff_get.mp (mapM_eq_ok_iff.mp done)
  have count : (numbered rows).length = rows.length := by simp [numbered]
  refine ⟨length.symm.trans count, fun position row found => ?_⟩
  obtain ⟨inside, same⟩ := List.getElem?_eq_some_iff.mp found
  have numberedAt := numbered_getElem? rows position
  rw [found, Option.map_some, List.getElem?_eq_some_iff] at numberedAt
  obtain ⟨inNumbered, isRow⟩ := numberedAt
  have inResults : position < results.length := length ▸ inNumbered
  refine ⟨results[position], List.getElem?_eq_getElem inResults, ?_⟩
  have own := each position inNumbered inResults
  simp only [List.get_eq_getElem, isRow] at own
  exact own

private theorem forall₂_of_valid {rows : List Json} (valid : Valid request rows) :
    List.Forall₂ (fun row attrs => ∃ data, shape row = .ok data ∧
      validateRow request data = .ok attrs) rows ((entries rows).map (validated request)) := by
  induction rows with
  | nil => exact .nil
  | cons row rest ih =>
    obtain ⟨data, attrs, shaped, done⟩ := valid row (List.mem_cons_self ..)
    have head : entries (row :: rest) = data :: entries rest := by
      simp [entries, shaped, Except.toOption]
    have own : validated request data = attrs := by simp [validated, done, Except.toOption]
    rw [head, List.map_cons, own]
    exact .cons ⟨data, shaped, done⟩
      (ih fun other member => valid other (List.mem_cons_of_mem _ member))

/-- A list is accepted with one item for each row, in the order of the rows. -/
theorem forall₂_of_accepted {result : List Attrs}
    (accepted : ListSerializer.toInternalValue request (.list rows) = .ok result) :
    List.Forall₂ (fun row attrs => ∃ data, shape row = .ok data ∧
      validateRow request data = .ok attrs) rows result := by
  obtain ⟨valid, -, rfl⟩ := toInternalValue_ok_iff.mp accepted
  exact forall₂_of_valid valid

/-- A row that raises another exception than a validation error ends the validation of its list. -/
theorem escapes_of_error {position : Nat} {data : Entries} (here : RowAt rows position data)
    {raised : Raised} (failed : outcomeOf request rows position data = .error raised)
    (kind : raised = .permissionDenied ∨ Accident raised) :
    ∃ first, ListSerializer.toInternalValue request (.list rows) = .error (.escaped first) := by
  cases queried : rows.findSome? queryError with
  | some first => exact ⟨first, by rw [ListSerializer.toInternalValue, queried]⟩
  | none =>
  rw [toInternalValue_of_answered queried]
  cases done : (numbered rows).mapM (rowResult request (indices request.ctx.rrsets rows)
      (collapsedIndices request.ctx.rrsets rows)) with
  | error first => exact ⟨first, by simp [checkRows, done]⟩
  | ok results =>
    obtain ⟨row, found, shaped⟩ := here
    obtain ⟨result, -, own⟩ := (results_of_mapM done).2 position row found
    have bad : rowResult request (indices request.ctx.rrsets rows)
        (collapsedIndices request.ctx.rrsets rows) (position, row) = .error raised :=
      rowResult_error_iff.mpr ⟨data, shaped, failed, kind⟩
    exact absurd (own.symm.trans bad) (by simp)

/-- A list is rejected with one entry for each row, which is empty where the row is accepted. -/
theorem entries_of_rejected {errors : List Errors}
    (rejected : ListSerializer.toInternalValue request (.list rows) = .error (.rows errors)) :
    errors.length = rows.length ∧ ∀ position < rows.length,
      (errors[position]? = some [] ↔ ∃ data attrs, RowAt rows position data ∧
        outcomeOf request rows position data = .ok attrs) := by
  rw [ListSerializer.toInternalValue] at rejected
  split at rejected
  · exact absurd rejected (by simp)
  simp only [checkRows] at rejected
  split at rejected
  · exact absurd rejected (by simp)
  · next results done =>
    split at rejected
    · exact absurd rejected (by simp)
    · obtain rfl := ListRaised.rows.inj (Except.error.inj rejected)
      obtain ⟨length, each⟩ := results_of_mapM done
      refine ⟨by rw [List.length_map, length], fun position inside => ?_⟩
      have found := List.getElem?_eq_getElem inside
      obtain ⟨result, isResult, own⟩ := each position _ found
      rw [List.getElem?_map, isResult, Option.map_some, Option.some.injEq]
      constructor
      · intro quiet
        obtain ⟨data, attrs, shaped, checked, validated, -⟩ :=
          rowResult_ok_iff.mp ⟨result, own, quiet⟩
        exact ⟨data, attrs, ⟨_, found, shaped⟩, bind_eq_ok_iff.mpr ⟨(), checked, validated⟩⟩
      · rintro ⟨data, attrs, ⟨row, isRow, shaped⟩, accepted⟩
        obtain rfl := Option.some.inj (found.symm.trans isRow)
        have ran : rowResult request (indices request.ctx.rrsets rows)
            (collapsedIndices request.ctx.rrsets rows) (position, rows[position])
            = collect (outcomeOf request rows position data) := by
          simp [rowResult, shaped, outcomeOf]
        rw [ran, accepted] at own
        rw [← Except.ok.inj own]
        rfl

end Answers

/-- An emptied row with valid fields for an RRset that may be written and is not stored. -/
structure NoOpRow (request : Request) (rows : List Json) (position : Nat) (data : Entries)
    (item : Item) : Prop where
  here : RowAt rows position data
  apart : ¬ Duplicate id rows position data
  empty : isEmptyRow data = true
  fields : ∃ attrs, fieldsOf request data = .ok attrs ∧ attrs.subname = some item.2 ∧
    attrs.type = some item.1
  permitted : request.ctx.hasObjectPermission item = true
  new : item ∉ request.ctx.rrsets.keys

section NoOp

variable {request : Request} {rows : List Json} {position : Nat} {data : Entries} {item : Item}
  (noOp : NoOpRow request rows position data item) (listView : request.ctx.subnameKwarg = none)
  (bounded : request.ctx.domainName.length ≤ nameMaxLength)
include noOp listView bounded

omit listView bounded in
private theorem NoOpRow.storedItem_eq (valid : Valid request rows)
    (listView : request.ctx.subnameKwarg = none) : storedItem data = item := by
  have member : data ∈ entries rows := List.mem_of_getElem? (valid.rowAt_iff.mp noOp.here)
  obtain ⟨attrs, fields, isSubname, isType⟩ := noOp.fields
  obtain ⟨row, -, -, done⟩ := valid.of_mem member
  obtain ⟨others, converted, -, final⟩ := steps_of_validateRow done
  obtain rfl : attrs = others := Except.ok.inj (fields.symm.trans converted)
  obtain ⟨sameSubname, sameType, -⟩ := fields_of_validate final
  rw [← keyOf_validated listView valid member, keyOf, sameSubname, sameType, isSubname, isType]
  rfl

/-- A row that asks for nothing is valid, or breaks its validation off. -/
theorem outcomeOf_noOp : (∃ attrs, outcomeOf request rows position data = .ok attrs) ∨
    ∃ raised, outcomeOf request rows position data = .error raised ∧ Accident raised := by
  obtain ⟨row, found, shaped⟩ := noOp.here
  obtain ⟨attrs, valid, isSubname, isType⟩ := noOp.fields
  have checked := (checkRow_ok_iff request.ctx.rrsets noOp.here).mpr ⟨noOp.apart, Or.inl noOp.empty⟩
  have passed := runValidators_eq listView valid isSubname isType noOp.permitted
  rw [if_neg fun stored => noOp.new stored.2] at passed
  have whole : outcomeOf request rows position data
      = validate request.ctx (knownInstance request (keyOfRow data)) attrs := by
    rw [outcomeOf, runRow, checked]
    change validateRow request data = _
    rw [validateRow_of_fieldsOf valid, passed]
    rfl
  have typed : typeOr (knownInstance request (keyOfRow data)) attrs = .ok item.1 :=
    typeOr_given valid isType
  have contents := validateContents_empty bounded shaped valid isSubname
    ((empty_iff_of_fieldsOf valid).mpr noOp.empty) item.1
  rw [whole]
  by_cases locked : item.1 = ns ∧ request.ctx.isLocallyRegistrable = true
  · right
    exact (validate_accident_iff bounded shaped valid isSubname isType).mpr ⟨locked.1, locked.2,
      noOp.empty, unknown_of_new valid isSubname isType noOp.new⟩
  · left
    refine ⟨{ attrs with records := some [] }, ?_⟩
    simp [validate, typed, contents, validateNs, locked, bind, Except.bind, pure, Except.pure]

end NoOp

/-- How the validation of a list may end: with one item for each row, with one entry of errors
for each row, or with a denied permission. An emptied row for an RRset that is not there is
accepted by `PATCH`, which then does nothing. -/
structure NeverCrashes (method : Method) (ctx : Context) (selected : Finset Item)
    (rows : List Json) : Prop where
  accepted (result : List Attrs)
    (done : ListSerializer.toInternalValue (bulkRequest method ctx selected) (.list rows)
      = .ok result) :
    List.Forall₂ (fun row attrs => ∃ data, shape row = .ok data ∧
      validateRow (bulkRequest method ctx selected) data = .ok attrs) rows result
  rejected (errors : List Errors)
    (done : ListSerializer.toInternalValue (bulkRequest method ctx selected) (.list rows)
      = .error (.rows errors)) :
    errors.length = rows.length ∧ ∀ position < rows.length,
      (errors[position]? = some [] ↔ ∃ data attrs, RowAt rows position data ∧
        outcomeOf (bulkRequest method ctx selected) rows position data = .ok attrs)
  denied (raised : Raised)
    (done : ListSerializer.toInternalValue (bulkRequest method ctx selected) (.list rows)
      = .error (.escaped raised)) :
    raised = .permissionDenied ∧ ∃ position data, RowAt rows position data ∧
      Denied (bulkRequest method ctx selected) rows position data
  noOp (isPatch : method = .patch) (position : Nat) (data : Entries) (item : Item)
    (row : NoOpRow (bulkRequest method ctx selected) rows position data item) :
    (∀ errors, ListSerializer.toInternalValue (bulkRequest method ctx selected) (.list rows)
      = .error (.rows errors) → errors[position]? = some []) ∧
    ∀ result, ListSerializer.toInternalValue (bulkRequest method ctx selected) (.list rows)
      = .ok result → ∀ env session session', BulkExact.Agrees env ctx session →
        BulkExact.save env method session selected result = .ok session' →
        value session'.db env.name item = none

section Sample

/-- A new domain that is locally registrable. -/
private def ctx₁ : Context where
  unicode := .plain
  dns := ⟨{"A".toList, ns}, fun content _ => .ok content, fun _ content => content,
    fun _ _ => false⟩
  domainName := "a.dedyn.io".toList
  rrsets := ∅
  minimumTtl := 60
  isLocallyRegistrable := true
  blockedSubnet _ := false
  hasObjectPermission _ := true
  isPost := false
  subnameKwarg := none

private def emptied (type : String) : Json :=
  .dict [("subname".toList, .str "sub".toList), ("type".toList, .str type.toList),
    ("records".toList, .list [])]

private def emptiedA : Entries :=
  [("subname".toList, .str "sub".toList), ("type".toList, .str "A".toList),
    ("records".toList, .list [])]

private theorem fields_emptied : fieldsOf (bulkRequest .patch ctx₁ ∅) emptiedA
    = .ok ⟨some "sub".toList, some [], none, some "A".toList⟩ := rfl

/-- A string that is a surrogate. -/
private def surrogate : Json := .unencodable ⟨[.inr 0], rfl⟩

private def surrogateType : Entries :=
  [("subname".toList, .str "sub".toList), ("type".toList, surrogate)]

private def rows₁ : List Json := [emptied "A", .null, .dict surrogateType]

/-- The database is asked for a subname with a surrogate before the row is validated. -/
example : ListSerializer.toInternalValue (bulkRequest .patch ctx₁ ∅)
    (.list [.dict [("subname".toList, surrogate), ("type".toList, .str "A".toList)]])
      = .error (.escaped .unicodeEncodeError) := rfl

end Sample

end DesecStack.Records.Crashes
