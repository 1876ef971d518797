/- module: DesecStack/Records/Validated
   layer: lemmas
   digest: What the validation of a row of a list says about the row and the stored RRsets. -/

import DesecStack.Records.Rows
import DesecStack.Records.Save

set_option autoImplicit false
set_option relaxedAutoImplicit false

namespace DesecStack.Records.Validated

open Library.PyText
open Library.Surrogates
open Names.Validators (validateLower validateUpper subnamePattern typePattern)
open Library.Runs (bind_eq_ok_iff mapM_eq_ok_iff)
open Changes.Models (RRset Item RRsets cname cleanRRset subnameMaxLength typeMaxLength ttlMax)
open Fields Serializer ListSerializer Rows

theorem runValidators_ok_iff {α : Type} {validators : List (α → Option Text)} {value : α}
    {result : Option α} :
    Fields.runValidators validators value = .ok result ↔
      result = some value ∧ ∀ validator ∈ validators, validator value = none := by
  unfold Fields.runValidators rejections
  split
  case h_1 accepted =>
    rw [List.filterMap_eq_nil_iff] at accepted
    exact ⟨fun same => ⟨(Except.ok.inj same).symm, accepted⟩, fun ⟨same, _⟩ => by rw [same]⟩
  case h_2 messages rejected =>
    simp only [reduceCtorEq, false_iff, not_and]
    rintro - accepted
    exact rejected (List.filterMap_eq_nil_iff.mpr accepted)

theorem text_of_charField {validators : List (Str → Option Text)} {value : Str}
    {result : Option Text}
    (done : (Fields.runValidators (validators ++
      [nullCharactersValidator, surrogateCharactersValidator]) value).map
        (fun accepted => accepted.bind Str.toText) = .ok result) :
    ∃ s, value = .text s ∧ result = some s ∧ nullCharactersValidator value = none ∧
      ∀ validator ∈ validators, validator value = none := by
  cases ran : Fields.runValidators (validators ++
      [nullCharactersValidator, surrogateCharactersValidator]) value with
  | error detail =>
    rw [ran] at done
    cases done
  | ok accepted =>
    obtain ⟨rfl, passed⟩ := runValidators_ok_iff.mp ran
    rw [ran] at done
    cases value with
    | text s =>
      exact ⟨s, rfl, (Except.ok.inj done).symm, passed nullCharactersValidator (by simp),
        fun validator member => passed validator (List.mem_append_left _ member)⟩
    | unencodable s =>
      have none := passed surrogateCharactersValidator (by simp)
      exact absurd (Option.map_eq_none_iff.mp none) (Str.surrogate?_unencodable s)

theorem charField_str {field : CharField} {s : Text} {result : Option Text}
    (done : field.runValidation (.str s) = .ok result) :
    result = some (strip s) ∧ (strip s = [] ∧ field.allowBlank = true ∨
      (∀ validator ∈ field.validators, validator (.text (strip s)) = none) ∧
        ∀ limit, field.maxLength = some limit → (strip s).length ≤ limit) := by
  simp only [CharField.runValidation, Json.scalar, Option.map_some, Option.some.injEq,
    Str.strip_text, Str.text.injEq] at done
  split at done
  case isTrue blank =>
    split at done
    case isTrue allowed =>
      simp only [Except.ok.injEq] at done
      exact ⟨by rw [← done, blank], Or.inl ⟨blank, allowed⟩⟩
    case isFalse => simp [fail] at done
  case isFalse =>
    obtain ⟨trimmed, same, rfl, -, accepted⟩ := text_of_charField done
    obtain rfl := Str.text.inj same
    simp only [List.mem_append] at accepted
    refine ⟨rfl, Or.inr ⟨fun validator member => accepted validator (Or.inl member), ?_⟩⟩
    intro limit isLimit
    have short := accepted (maxLengthValidator limit) (Or.inr (by simp [isLimit]))
    by_contra long
    simp [maxLengthValidator, long] at short

private theorem nul_not_mem_of_charField {field : CharField} {s : Text} {result : Option Text}
    (done : field.runValidation (.str s) = .ok result) : Char.ofNat 0 ∉ s := by
  intro inside
  have kept := mem_strip inside (by decide)
  simp only [CharField.runValidation, Json.scalar, Option.map_some, Option.some.injEq,
    Str.strip_text, Str.text.injEq] at done
  split at done
  · next blank =>
    rw [blank] at kept
    cases kept
  · obtain ⟨trimmed, same, -, none, -⟩ := text_of_charField done
    have code : 0 ∈ (Str.text (strip s)).codes :=
      List.mem_map.mpr ⟨.inl (Char.ofNat 0), List.mem_map_of_mem kept, rfl⟩
    simp [nullCharactersValidator, code] at none

private theorem charField_unencodable {field : CharField} {s : Unencodable} {result : Option Text} :
    field.runValidation (.unencodable s) ≠ .ok result := by
  intro done
  simp only [CharField.runValidation, Json.scalar, Option.map_some, Option.some.injEq,
    Str.strip_eq_text_iff, reduceCtorEq, false_and, exists_false, if_false] at done
  obtain ⟨trimmed, same, -⟩ := text_of_charField done
  obtain ⟨t, isText, -⟩ := Str.strip_eq_text_iff.mp same
  cases isText

private theorem charField_null {field : CharField} {result : Option Text} :
    field.runValidation .null ≠ .ok result := by
  intro done
  have unblank : ¬ strip ['N', 'o', 'n', 'e'] = [] := by decide
  simp [CharField.runValidation, Json.scalar, unblank, fail] at done

theorem charField_ne_none {field : CharField} {value : Json} :
    field.runValidation value ≠ .ok none := by
  unfold CharField.runValidation
  dsimp only
  split
  · split <;> simp [fail]
  · split
    · simp [fail]
    · simp [fail]
    · simp [fail]
    · intro skipped
      obtain ⟨s, -, same, -⟩ := text_of_charField skipped
      cases same

private theorem messages_of_charField {field : CharField} {value : Json} {detail : ErrorDetail}
    (failed : field.runValidation value = .error detail) :
    ∃ messages, detail = .messages messages := by
  unfold CharField.runValidation at failed
  dsimp only at failed
  split at failed
  · split at failed
    · cases failed
    · exact ⟨_, (Except.error.inj failed).symm⟩
  · split at failed
    · exact ⟨_, (Except.error.inj failed).symm⟩
    · exact ⟨_, (Except.error.inj failed).symm⟩
    · exact ⟨_, (Except.error.inj failed).symm⟩
    · unfold Fields.runValidators at failed
      split at failed
      · cases failed
      · exact ⟨_, (Except.error.inj failed).symm⟩

private theorem ok_of_andThen {α : Type} {field : FieldResult α} {method : α → FieldResult α}
    {result : Option α} (done : andThen field method = .ok result) :
    ∃ inner, field = .ok inner := by
  unfold andThen at done
  split at done
  · exact ⟨_, rfl⟩
  · exact ⟨result, done⟩

theorem andThen_ok {α : Type} {field : FieldResult α} {method : α → FieldResult α} {value : α}
    (done : andThen field method = .ok (some value)) :
    ∃ inner, field = .ok (some inner) ∧ method inner = .ok (some value) := by
  unfold andThen at done
  split at done
  case h_1 inner => exact ⟨inner, rfl, done⟩
  case h_2 other => exact absurd done (other value)

private theorem checking_none {check : Str → Bool} {message : Text → Text} {value : Str} :
    checking check message value = none ↔ check value = true := by
  simp [checking]

private theorem lookup_of_shape {row : Json} {data : Entries} (shaped : shape row = .ok data)
    {key : Text}
    (isKey : key = subnameKey ∨ key = typeKey) :
    data.lookup key = none ∨ data.lookup key = some .null ∨
      (∃ s, data.lookup key = some (.str s) ∧ strOf data key = some (.text s)) ∨
      ∃ s, data.lookup key = some (.unencodable s) := by
  have typed : typeError data key = [] := by
    cases row with
    | dict entries =>
      simp only [shape] at shaped
      split at shaped
      case h_1 fine =>
        obtain rfl := Except.ok.inj shaped
        rw [List.append_eq_nil_iff] at fine
        rcases isKey with rfl | rfl
        · exact fine.1
        · exact fine.2
      case h_2 => exact absurd shaped (by simp)
    | _ => simp [shape] at shaped
  unfold typeError at typed
  split at typed
  · next absent => exact Or.inl absent
  · next isNull => exact Or.inr (Or.inl isNull)
  · next s isStr => exact Or.inr (Or.inr (Or.inl ⟨s, isStr, by simp [strOf, isStr]⟩))
  · next s isStr => exact Or.inr (Or.inr (Or.inr ⟨s, isStr⟩))
  · exact absurd typed (by simp)

section Row

variable {request : Request} {row : Json} {data : Entries} {attrs : Attrs}

/-- The steps of a successful validation. -/
theorem steps_of_validateRow (done : validateRow request data = .ok attrs) :
    ∃ fields, Serializer.toInternalValue request.ctx (rowRoot request data)
        (knownInstance request (keyOfRow data)) data = .ok fields ∧
      Serializer.runValidators request.ctx (rowRoot request data)
        (knownInstance request (keyOfRow data)) fields = .ok () ∧
      validate request.ctx (knownInstance request (keyOfRow data)) fields = .ok attrs := by
  simp only [validateRow, runValidation, bind_eq_ok_iff] at done
  obtain ⟨fields, converted, _, checked, validated⟩ := done
  exact ⟨fields, converted, checked, validated⟩

/-- Each field of a conversion has succeeded. -/
theorem fields_of_toInternalValue {ctx : Context} {root : Root} {instance? : Instance}
    {fields : Attrs} (done : Serializer.toInternalValue ctx root instance? data = .ok fields) :
    runSubname ctx root instance? data = .ok fields.subname ∧
      runRecords ctx root data = .ok fields.records ∧ runTtl ctx root data = .ok fields.ttl ∧
      runType ctx root instance? data = .ok fields.type := by
  simp only [Serializer.toInternalValue] at done
  split at done
  case h_1 fine =>
    simp only [List.append_eq_nil_iff] at fine
    obtain ⟨⟨⟨subname, records⟩, ttl⟩, type⟩ := fine
    obtain rfl := Except.ok.inj done
    have ok {α : Type} {key : Text} {field : FieldResult α} (fine : fieldErrors key field = []) :
        field = .ok (fieldValue field) := by
      cases field with
      | ok value => rfl
      | error detail => simp [fieldErrors] at fine
    exact ⟨ok subname, ok records, ok ttl, ok type⟩
  case h_2 => exact absurd done (by simp)

theorem subname_of_runSubname {ctx : Context} {root : Root} {instance? : Instance}
    {subname : Text} (many : root.many = true) (shaped : shape row = .ok data)
    (done : runSubname ctx root instance? data = .ok (some subname)) :
    ∃ s, strOf data subnameKey = some (.text s) ∧ subname = strip s ∧
      (strip s = [] ∨ validateLower ctx.unicode (strip s) = true ∧
        subnamePattern (strip s) = true) ∧ (strip s).length ≤ subnameMaxLength ∧
      ∀ known, instance? = some known → known.1.2 = strip s := by
  rcases lookup_of_shape shaped (Or.inl rfl) with absent | isNull | ⟨s, isStr, read⟩ | ⟨s, isStr⟩
  · simp [runSubname, absent, many, fail] at done
    split at done <;> simp at done
  · simp only [runSubname, isNull] at done
    obtain ⟨inner, ran, -⟩ := andThen_ok done
    exact absurd ran charField_null
  · simp only [runSubname, isStr] at done
    obtain ⟨inner, ran, own⟩ := andThen_ok done
    obtain ⟨trimmed, checked⟩ := charField_str ran
    obtain rfl := Option.some.inj trimmed
    unfold validateSubname at own
    split at own
    case isTrue => simp [fail] at own
    case isFalse same =>
      split at own
      case isTrue => simp [fail] at own
      case isFalse =>
        obtain rfl := Option.some.inj (Except.ok.inj own)
        refine ⟨s, read, rfl, ?_, ?_, ?_⟩
        · rcases checked with ⟨blank, -⟩ | ⟨validators, -⟩
          · exact Or.inl blank
          · refine Or.inr ⟨?_, ?_⟩
            · exact checking_none.mp (validators
                (checking (Str.piecewise (validateLower ctx.unicode)) notLowercase)
                (by simp [subnameField]))
            · exact checking_none.mp (validators
                (checking (Str.matching subnamePattern) fun _ => invalidSubname)
                (by simp [subnameField]))
        · rcases checked with ⟨blank, -⟩ | ⟨-, short⟩
          · simp [blank]
          · exact short _ rfl
        · rintro known rfl
          simpa using same
  · simp only [runSubname, isStr] at done
    obtain ⟨inner, ran, -⟩ := andThen_ok done
    exact absurd ran charField_unencodable

private theorem type_of_runType {ctx : Context} {root : Root} {instance? : Instance}
    {type : Text} (shaped : shape row = .ok data)
    (done : runType ctx root instance? data = .ok (some type)) :
    ∃ t, strOf data typeKey = some (.text t) ∧ type = strip t ∧
      validateUpper ctx.unicode (strip t) = true ∧ typePattern (strip t) = true ∧
      (strip t).length ≤ typeMaxLength ∧ ∀ known, instance? = some known → known.1.1 = strip t := by
  rcases lookup_of_shape shaped (Or.inr rfl) with absent | isNull | ⟨t, isStr, read⟩ | ⟨t, isStr⟩
  · simp only [runType, absent] at done
    split at done <;> simp [fail] at done
  · simp only [runType, isNull] at done
    obtain ⟨inner, ran, -⟩ := andThen_ok done
    exact absurd ran charField_null
  · simp only [runType, isStr] at done
    obtain ⟨inner, ran, own⟩ := andThen_ok done
    obtain ⟨trimmed, checked⟩ := charField_str ran
    obtain rfl := Option.some.inj trimmed
    have kept : type = strip t := by
      unfold validateType at own
      split at own
      · exact (Option.some.inj (Except.ok.inj own)).symm
      · split at own
        · simp [fail] at own
        · split at own <;> simp [fail] at own
    rcases checked with ⟨-, blank⟩ | ⟨validators, short⟩
    · simp [typeField] at blank
    · refine ⟨t, read, kept, ?_, ?_, short _ rfl, ?_⟩
      · exact checking_none.mp (validators
          (checking (Str.piecewise (validateUpper ctx.unicode)) notUppercase) (by simp [typeField]))
      · exact checking_none.mp (validators
          (checking (Str.matching typePattern) fun _ => invalidType) (by simp [typeField]))
      · rintro known rfl
        have same := validators (readOnlyOnUpdateValidator (some known)) (by simp)
        simpa [readOnlyOnUpdateValidator] using same
  · simp only [runType, isStr] at done
    obtain ⟨inner, ran, -⟩ := andThen_ok done
    exact absurd ran charField_unencodable

private theorem itemErrors_none {results : List (Except ItemDetail Text)}
    (fine : (itemErrors results).all (· = .none) = true)
    (honest : ∀ result ∈ results, result ≠ .error .none) :
    (itemValues results).length = results.length := by
  induction results with
  | nil => rfl
  | cons result rest ih =>
    simp only [itemErrors, List.map_cons, List.all_cons, Bool.and_eq_true] at fine
    have later := ih fine.2 fun r member => honest r (List.mem_cons_of_mem _ member)
    have own := honest result (List.mem_cons_self ..)
    cases result with
    | ok text => simpa [itemValues, Except.toOption] using later
    | error detail =>
      have : detail = .none := by simpa using fine.1
      exact absurd (this ▸ rfl) own

private theorem runContent_ne_none (value : Json) : runContent value ≠ .error .none := by
  cases ran : (CharField.mk false none []).runValidation value with
  | ok content =>
    cases content with
    | none => exact absurd ran charField_ne_none
    | some content => simp [runContent, ran]
  | error detail =>
    obtain ⟨messages, rfl⟩ := messages_of_charField ran
    simp [runContent, ran]

theorem runRecord_ne_none (item : Json) : runRecord item ≠ .error .none := by
  cases item with
  | str s => exact runContent_ne_none _
  | unencodable s => exact runContent_ne_none _
  | _ => simp [runRecord]

/-- Records are skipped in a partial update only; else they are as many as were given. -/
theorem records_of_runRecords {ctx : Context} {root : Root} {records : Option (List Text)}
    (done : runRecords ctx root data = .ok records) :
    (records = none ∧ isEmptyRow data = false ∧ root.isPartial = true) ∨
      ∃ values, records = some values ∧ (values = [] ↔ isEmptyRow data = true) ∧
        (ctx.isPost = true → values ≠ []) := by
  unfold runRecords at done
  split at done
  · next absent =>
    split at done
    · next isPartial =>
      exact Or.inl ⟨(Except.ok.inj done).symm, by simp [isEmptyRow, absent], isPartial⟩
    · exact absurd done (by simp [fail])
  · exact absurd done (by simp [fail])
  · next items isList =>
    dsimp only at done
    split at done
    · next fine =>
      right
      have count := itemErrors_none fine (by simp [runRecord_ne_none])
      simp only [andThen, validateRecords] at done
      split at done
      · exact absurd done (by simp [fail])
      · next allowed =>
        refine ⟨_, (Except.ok.inj done).symm, ?_, fun post empty => ?_⟩
        · rw [← List.length_eq_zero_iff, count, List.length_map, List.length_eq_zero_iff]
          cases items <;> simp [isEmptyRow, isList, Json.isEmptyList]
        · simp [post, empty] at allowed
    · exact absurd done (by simp)
  · exact absurd done (by simp)

theorem ttl_of_runTtl {ctx : Context} {root : Root} {ttl : Option Int}
    (done : runTtl ctx root data = .ok ttl) :
    (ttl = none ∧ root.isPartial = true) ∨
      ∃ n : Int, ttl = some n ∧ (ctx.minimumTtl : Int) ≤ n ∧ n ≤ maximumTtl := by
  unfold runTtl at done
  split at done
  · split at done
    · next isPartial => exact Or.inl ⟨(Except.ok.inj done).symm, isPartial⟩
    · exact absurd done (by simp [fail])
  · right
    unfold integerFieldRunValidation at done
    split at done
    · exact absurd done (by simp [fail])
    · exact absurd done (by simp [fail])
    · split at done
      · exact absurd done (by simp [fail])
      · split at done
        · exact absurd done (by simp [fail])
        · next n _ =>
          obtain ⟨rfl, accepted⟩ := runValidators_ok_iff.mp done
          refine ⟨n, rfl, ?_, ?_⟩
          · simpa [minValueValidator] using accepted (minValueValidator ctx.minimumTtl) (by simp)
          · simpa [maxValueValidator] using accepted (maxValueValidator maximumTtl) (by simp)

private theorem absent_of_runType {ctx : Context} {root : Root} {instance? : Instance}
    (shaped : shape row = .ok data) (done : runType ctx root instance? data = .ok none) :
    strOf data typeKey = none := by
  rcases lookup_of_shape shaped (Or.inr rfl) with absent | isNull | ⟨t, isStr, read⟩ | ⟨t, isStr⟩
  · simp [strOf, absent]
  · simp [strOf, isNull]
  · simp only [runType, isStr, andThen] at done
    split at done
    · next value ran =>
      unfold validateType at done
      split at done
      · simp at done
      · split at done
        · simp [fail] at done
        · split at done <;> simp [fail] at done
    · next other =>
      obtain ⟨same, -⟩ := charField_str done
      simp at same
  · simp only [runType, isStr] at done
    obtain ⟨inner, ran⟩ := ok_of_andThen done
    exact absurd ran charField_unencodable

theorem knownInstance_some {known : Item × RRset} {key : Key}
    (found : knownInstance request key = some known) :
    key = (some (.text known.1.2), some (.text known.1.1)) ∧ known.1 ∈ request.queryset ∧
      request.ctx.rrsets.lookup known.1 = some known.2 := by
  unfold knownInstance at found
  split at found
  · next subname type =>
    split at found
    · next member =>
      obtain ⟨rrset, stored, rfl⟩ := Option.map_eq_some_iff.mp found
      exact ⟨rfl, member, stored⟩
    · simp at found
  · simp at found

private theorem mapM_canonical_nil_iff {ctx : Context} {type : Text} {records canonical : List Text}
    (done : validateCanonicalPresentation ctx type records = .ok canonical) :
    canonical = [] ↔ records = [] := by
  unfold validateCanonicalPresentation at done
  cases records with
  | nil =>
    simp only [List.mapM_nil, pure, Except.pure, Except.ok.injEq] at done
    simp [← done]
  | cons record rest =>
    simp only [List.mapM_cons, bind_eq_ok_iff, pure, Except.pure, Except.ok.injEq] at done
    obtain ⟨first, -, others, -, rfl⟩ := done
    simp

theorem records_of_validateContents {ctx : Context} {type : Text} {fields : Attrs}
    {records : Option (List Text)} (contents : validateContents ctx type fields = .ok records) :
    (records = none ↔ fields.records = none) ∧
      (records = some [] ↔ fields.records = some []) := by
  unfold validateContents at contents
  split at contents
  · next absent =>
    obtain rfl := Except.ok.inj contents
    simp [absent]
  · next given isGiven =>
    simp only [bind_eq_ok_iff, pure, Except.pure, Except.ok.injEq] at contents
    obtain ⟨canonical, forms, -, -, -, -, -, -, rfl⟩ := contents
    simp [isGiven, mapM_canonical_nil_iff forms]

theorem forms_of_validateContents {ctx : Context} {type : Text} {fields : Attrs}
    {records : Option (List Text)} {values : List Text} (given : fields.records = some values)
    (contents : validateContents ctx type fields = .ok records) :
    ∃ forms, records = some forms ∧
      List.Forall₂ (fun content form => ctx.dns.canonical content type = .ok form) values
        forms := by
  simp only [validateContents, given, bind_eq_ok_iff, pure, Except.pure, Except.ok.injEq]
    at contents
  obtain ⟨forms, canonical, -, -, -, -, -, -, rfl⟩ := contents
  refine ⟨forms, rfl, (mapM_eq_ok_iff.mp canonical).imp fun content form one => ?_⟩
  split at one
  · next same => rw [same, Except.ok.inj one]
  · cases one

/-- The final check changes records into their canonical forms, and nothing else. -/
theorem fields_of_validate {ctx : Context} {instance? : Instance} {fields : Attrs}
    (done : validate ctx instance? fields = .ok attrs) :
    attrs.subname = fields.subname ∧ attrs.type = fields.type ∧ attrs.ttl = fields.ttl ∧
      (attrs.records = none ↔ fields.records = none) ∧
      (attrs.records = some [] ↔ fields.records = some []) := by
  simp only [validate, bind_eq_ok_iff, pure, Except.pure, Except.ok.injEq] at done
  obtain ⟨type, -, records, contents, -, -, rfl⟩ := done
  exact ⟨rfl, rfl, rfl, records_of_validateContents contents⟩

/-- The validators across fields let data pass only for an RRset that may be written. -/
theorem permitted_of_runValidators {ctx : Context} {root : Root} {instance? : Instance}
    {fields : Attrs} (done : Serializer.runValidators ctx root instance? fields = .ok ()) :
    ∃ subname type, subnameOr ctx fields = .ok subname ∧ typeOr instance? fields = .ok type ∧
      ctx.hasObjectPermission (type, subname) = true := by
  simp only [Serializer.runValidators, bind_eq_ok_iff] at done
  obtain ⟨_, permitted, -⟩ := done
  simp only [permissionValidator, bind_eq_ok_iff] at permitted
  obtain ⟨subname, given, type, typed, allowed⟩ := permitted
  refine ⟨subname, type, given, typed, ?_⟩
  by_contra denied
  simp [denied] at allowed

theorem key_of_runValidators {ctx : Context} {root : Root} {instance? : Instance} {fields : Attrs}
    (listView : ctx.subnameKwarg = none)
    (done : Serializer.runValidators ctx root instance? fields = .ok ()) :
    fields.subname.isSome ∧ (fields.type.isSome ∨ instance?.isSome) ∧
      (instance? = none → ∀ subname type, fields.subname = some subname →
        fields.type = some type → (type, subname) ∉ ctx.rrsets.keys) := by
  simp only [Serializer.runValidators, bind_eq_ok_iff] at done
  obtain ⟨_, permitted, unique, uniqueDone, exclusion, -, accepted⟩ := done
  simp only [permissionValidator, bind_eq_ok_iff] at permitted
  obtain ⟨subname, given, type, typed, -⟩ := permitted
  refine ⟨?_, ?_, ?_⟩
  · cases isGiven : fields.subname with
    | none => simp [subnameOr, isGiven, listView] at given
    | some s => rfl
  · unfold typeOr at typed
    split at typed
    · next isGiven => exact Or.inl (by simp [isGiven])
    · exact Or.inr rfl
    · simp at typed
  · rintro rfl subname type isSubname isType stored
    simp only [uniqueTogetherValidator, isSubname, isType, stored, if_true,
      Except.ok.injEq] at uniqueDone
    subst uniqueDone
    simp at accepted

theorem queryError_of_validateRow (shaped : shape row = .ok data)
    (done : validateRow request data = .ok attrs) : queryError row = none := by
  obtain ⟨fields, converted, -, -⟩ := steps_of_validateRow done
  obtain ⟨subnameDone, -, -, -⟩ := fields_of_toInternalValue converted
  simp only [queryError, shaped, Except.toOption, Option.bind_some]
  rcases lookup_of_shape shaped (Or.inl rfl) with absent | isNull | ⟨s, isStr, read⟩ | ⟨s, isStr⟩
  · simp [strOf, absent]
  · simp [strOf, isNull]
  · simp only [runSubname, isStr] at subnameDone
    obtain ⟨inner, ran⟩ := ok_of_andThen subnameDone
    simp [read, nul_not_mem_of_charField ran]
  · simp only [runSubname, isStr] at subnameDone
    obtain ⟨inner, ran⟩ := ok_of_andThen subnameDone
    exact absurd ran charField_unencodable

/-- What is known of a row that is valid by itself, and falls on an RRset after trimming. -/
structure ValidRow (request : Request) (data : Entries) (item : Item) (attrs : Attrs) : Prop where
  subname : attrs.subname = some item.2
  type : attrs.type = some item.1
  trimmed : readKey Str.strip data = (some (.text item.2), some (.text item.1))
  clean (ttl : Nat) (bound : ttl ≤ ttlMax) : cleanRRset request.ctx.unicode item ttl = true
  empty_iff : attrs.records = some [] ↔ isEmptyRow data = true
  unknown (new : knownInstance request (keyOfRow data) = none) :
    item ∉ request.ctx.rrsets.keys
  known (known : Item × RRset) (found : knownInstance request (keyOfRow data) = some known) :
    known.1 = item ∧ keyOfRow data = (some (.text item.2), some (.text item.1))
  complete (new : knownInstance request (keyOfRow data) = none)
    (nonempty : isEmptyRow data = false) : ∃ records ttl, attrs.records = some records ∧
      records ≠ [] ∧ attrs.ttl = some (Int.ofNat ttl) ∧ ttl ≤ ttlMax
  not_post (post : request.ctx.isPost = true) : isEmptyRow data = false
  permitted : request.ctx.hasObjectPermission item = true

theorem validRow_of_validateRow (listView : request.ctx.subnameKwarg = none)
    (shaped : shape row = .ok data) (done : validateRow request data = .ok attrs) :
    ∃ item, ValidRow request data item attrs := by
  obtain ⟨fields, converted, checked, validated⟩ := steps_of_validateRow done
  obtain ⟨subnameDone, recordsDone, ttlDone, typeDone⟩ := fields_of_toInternalValue converted
  obtain ⟨sameSubname, sameType, sameTtl, sameNone, sameEmpty⟩ := fields_of_validate validated
  obtain ⟨hasSubname, hasType, isNew⟩ := key_of_runValidators listView checked
  obtain ⟨subname, isSubname⟩ := Option.isSome_iff_exists.mp hasSubname
  have typed : fields.type.isSome := by
    cases isType : fields.type with
    | some type => rfl
    | none =>
      have untyped := absent_of_runType shaped (isType ▸ typeDone)
      obtain ⟨known, found⟩ := Option.isSome_iff_exists.mp (hasType.resolve_left (by simp [isType]))
      have key := (knownInstance_some found).1
      simp [keyOfRow, untyped] at key
  obtain ⟨type, isType⟩ := Option.isSome_iff_exists.mp typed
  rw [isSubname] at subnameDone
  rw [isType] at typeDone
  obtain ⟨s, readS, rfl, subnameFine, subnameShort, subnameKept⟩ :=
    subname_of_runSubname rfl shaped subnameDone
  obtain ⟨t, readT, rfl, upper, pattern, typeShort, typeKept⟩ := type_of_runType shaped typeDone
  refine ⟨(strip t, strip s), ⟨sameSubname.trans isSubname, sameType.trans isType,
    by simp [readKey, readS, readT], fun ttl bound => ?_, ?_, fun new => ?_,
    fun known found => ?_, fun new nonempty => ?_, fun post => ?_, ?_⟩⟩
  · simp only [cleanRRset, Names.Validators.validateType, upper, pattern, typeShort, subnameShort,
      bound, Names.Validators.validateSubname, Bool.and_eq_true, Bool.or_eq_true, beq_iff_eq,
      decide_true, and_true, true_and]
    exact subnameFine
  · rw [sameEmpty]
    rcases records_of_runRecords recordsDone with ⟨absent, nonempty, -⟩ | ⟨values, given, iff, -⟩
    · simp [absent, nonempty]
    · simp [given, iff]
  · exact isNew new _ _ isSubname isType
  · obtain ⟨key, -, -⟩ := knownInstance_some found
    have item : known.1 = (strip t, strip s) :=
      Prod.ext (typeKept known found) (subnameKept known found)
    exact ⟨item, by rw [key, item]⟩
  · have complete : (rowRoot request data).isPartial = false := by
      simp [rowRoot, new, nonempty]
    rcases records_of_runRecords recordsDone with ⟨-, -, skipped⟩ | ⟨values, given, iff, -⟩
    · rw [complete] at skipped
      exact absurd skipped (by simp)
    · rcases ttl_of_runTtl ttlDone with ⟨-, skipped⟩ | ⟨n, isTtl, lower, upperBound⟩
      · rw [complete] at skipped
        exact absurd skipped (by simp)
      · have some : attrs.records ≠ none := fun h => by
          rw [sameNone.mp h] at given
          exact absurd given (by simp)
        obtain ⟨records, isRecords⟩ := Option.ne_none_iff_exists'.mp some
        refine ⟨records, n.toNat, isRecords, fun empty => ?_, ?_, ?_⟩
        · rw [empty] at isRecords
          have := sameEmpty.mp isRecords
          rw [given, Option.some.injEq, iff, nonempty] at this
          exact absurd this (by simp)
        · rw [sameTtl, isTtl]
          simp only [Int.ofNat_eq_natCast, Option.some.injEq]
          omega
        · simp only [maximumTtl] at upperBound
          simp only [ttlMax]
          omega
  · rcases records_of_runRecords recordsDone with ⟨-, nonempty, -⟩ | ⟨values, -, iff, onPost⟩
    · exact nonempty
    · by_contra empty
      exact onPost post (iff.mpr (by simpa using empty))
  · obtain ⟨given, wanted, isGiven, isWanted, allowed⟩ := permitted_of_runValidators checked
    have sameGiven : given = strip s := by simpa [subnameOr, isSubname] using isGiven.symm
    have sameWanted : wanted = strip t := by
      unfold typeOr at isWanted
      split at isWanted
      · next c rest found =>
        rw [isType] at found
        rw [← Except.ok.inj isWanted]
        exact (Option.some.inj found).symm
      · next found _ =>
        rw [← Except.ok.inj isWanted]
        exact typeKept _ found
      · exact absurd isWanted (by simp)
    rw [← sameGiven, ← sameWanted]
    exact allowed

end Row

end DesecStack.Records.Validated
