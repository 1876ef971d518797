/- module: DesecStack/Records/TextRows
   layer: lemmas
   digest: What the serializer makes of data that give an RRset with its type, subname, TTL and
     records. -/

import DesecStack.Library.Decimal
import DesecStack.Records.Applied
import DesecStack.Records.Canonical
import DesecStack.Views.Enforced

set_option autoImplicit false
set_option relaxedAutoImplicit false

namespace DesecStack.Records.TextRows

open Library.PyText
open Library.Surrogates (Str)
open Library.Decimal (decimal isDigits_iff isDigits_decimal)
open Library.Runs (bind_eq_ok_iff)
open Changes.Models
open Fields
open Serializer
open ListSerializer (isEmptyRow strOf knownInstance keyOfRow)
open Save
open Rows (Entries Duplicate readKey readKey_id)
open Validated
open Child
open Accepted
open Applied
open Values (ttlAfter)
open BulkExact (Method bulkRequest storedItem validRow_of_mem checked_iff_of_valid)
open Views.Enforced

section Numbers

variable (unicode : Unicode)

private theorem isPlain_of_isDigit {c : Char} (digit : c.isDigit = true) : isPlain c = true := by
  have bounds : 48 ≤ c.toNat ∧ c.toNat ≤ 57 := Char.isDigit_iff_toNat.mp digit
  simp [isPlain]
  omega

private theorem isSpace_of_isDigit {c : Char} (digit : c.isDigit = true) : isSpace c = false := by
  have bounds : 48 ≤ c.toNat ∧ c.toNat ≤ 57 := Char.isDigit_iff_toNat.mp digit
  have same : c.val.toNat = c.toNat := rfl
  simp only [isSpace, same, Bool.or_eq_false_iff, Bool.and_eq_false_iff, decide_eq_false_iff_not,
    beq_eq_false_iff_ne]
  omega

private theorem readDigits_digits : ∀ (s : Text) (n : Nat), s ≠ [] → (∀ c ∈ s, c.isDigit = true) →
    readDigits unicode n s = some (Nat.ofDigitChars 10 s n) := by
  intro s
  induction s with
  | nil =>
    intro n nonempty _
    exact absurd rfl nonempty
  | cons c rest ih =>
    intro n _ digits
    obtain ⟨digit, later⟩ := List.forall_mem_cons.mp digits
    have own : unicode.decimal c = some (c.toNat - 48) := by
      rw [unicode.decimal_plain c (isPlain_of_isDigit digit), if_pos digit]
      rfl
    rw [Nat.ofDigitChars_cons]
    cases rest with
    | nil =>
      rw [readDigits, own, Nat.ofDigitChars_nil]
      rfl
    | cons d more =>
      have other : d ≠ '_' := by
        rintro rfl
        exact absurd (later '_' (List.mem_cons_self ..)) (by decide)
      have step : readDigits unicode n (c :: d :: more) =
          (unicode.decimal c).bind fun m => readDigits unicode (10 * n + m) (d :: more) := by
        rw [readDigits.eq_def]
        split
        · cases ‹c :: d :: more = []›
        · cases ‹c :: d :: more = [_]›
        · next same =>
          cases same
          exact absurd rfl other
        · next same =>
          cases same
          rfl
      rw [step, own, Option.bind_some, ih _ (by simp) later]
      rfl

private theorem toInt_ofInt (n : Nat) : toInt unicode (dropDecimals (ofInt n)) = some n := by
  have written : ofInt n = decimal n := ofInt_natCast n
  obtain ⟨nonempty, digits⟩ := isDigits_iff.mp (isDigits_decimal n)
  have visible : ∀ c ∈ decimal n, isSpace c = false := fun c inside =>
    isSpace_of_isDigit (digits c inside)
  have noDot : dropDecimals (decimal n) = decimal n := by
    rw [dropDecimals]
    apply if_neg
    rw [endsWith_iff]
    intro dot
    have inside : '.' ∈ decimal n := by
      have within := dot.subset (List.mem_singleton_self '.')
      have shorter := (List.dropWhile_suffix _).subset (List.mem_reverse.mp within)
      have core := List.mem_reverse.mp shorter
      exact List.mem_reverse.mp ((List.dropWhile_suffix _).subset (List.mem_reverse.mp core))
    exact absurd (digits '.' inside) (by decide)
  have read := readDigits_digits unicode (decimal n) 0 nonempty digits
  rw [show Nat.ofDigitChars 10 (decimal n) 0 = n from Library.Decimal.number_decimal n] at read
  rw [written, noDot, toInt, strip_eq_self visible]
  split
  · next rest same => exact absurd (digits '-' (same ▸ List.mem_cons_self ..)) (by decide)
  · next rest same => exact absurd (digits '+' (same ▸ List.mem_cons_self ..)) (by decide)
  · rw [read]
    rfl

end Numbers

/-- Data that give an RRset by its type and subname, with a TTL and the texts of records. -/
structure Gives (data : Entries) (item : Item) (ttl : Nat) (contents : List Text) : Prop where
  type : data.lookup typeKey = some (.str item.1)
  subname : data.lookup subnameKey = some (.str item.2)
  ttl : data.lookup ttlKey = some (.int ttl)
  records : data.lookup recordsKey = some (.list (contents.map .str))

private theorem itemValues_strs {contents : List Text}
    (fine : (itemErrors (contents.map fun s => runRecord (.str s))).all (· = .none) = true) :
    itemValues (contents.map fun s => runRecord (.str s)) = contents.map strip := by
  induction contents with
  | nil => rfl
  | cons s rest ih =>
    simp only [itemErrors, List.map_cons, List.all_cons, Bool.and_eq_true] at fine
    have later := ih fine.2
    have own : runRecord (.str s) = .ok (strip s) := by
      cases ran : runRecord (.str s) with
      | error detail =>
        rw [ran] at fine
        have nothing : detail = .none := by simpa using fine.1
        exact absurd (nothing ▸ ran) (runRecord_ne_none _)
      | ok text =>
        rw [runRecord, runContent] at ran
        split at ran
        · next accepted =>
          obtain ⟨same, -⟩ := charField_str accepted
          rw [← Option.some.inj same]
          exact ran.symm
        all_goals cases ran
    rw [List.map_cons, List.map_cons, own]
    exact congrArg (strip s :: ·) later

section Row

variable {data : Entries} {item : Item} {ttl : Nat} {contents : List Text}
  (gives : Gives data item ttl contents)
include gives

theorem Gives.isEmptyRow_iff : isEmptyRow data = true ↔ contents = [] := by
  rw [isEmptyRow, gives.records]
  cases contents <;> simp [Json.isEmptyList]

private theorem Gives.readKey_eq : readKey Str.strip data =
    (some (.text (strip item.2)), some (.text (strip item.1))) := by
  have type : strOf data typeKey = some (.text item.1) := by rw [strOf, gives.type]
  have subname : strOf data subnameKey = some (.text item.2) := by rw [strOf, gives.subname]
  rw [readKey, type, subname]
  rfl

theorem Gives.storedItem_eq : storedItem data = (strip item.1, strip item.2) := by
  rw [storedItem, gives.readKey_eq]
  rfl

/-- The TTL is read as it is. -/
theorem Gives.ttl_of_run {ctx : Context} {root : Root} {value : Option Int}
    (done : runTtl ctx root data = .ok value) :
    value = some (ttl : Int) ∧ ctx.minimumTtl ≤ ttl ∧ (ttl : Int) ≤ maximumTtl := by
  rw [runTtl, gives.ttl] at done
  simp only [integerFieldRunValidation, Json.scalar, Json.isStr, Str.toText_text, Option.bind_some,
    toInt_ofInt, Bool.false_and,
    Bool.false_eq_true, if_false] at done
  obtain ⟨same, passes⟩ := runValidators_ok_iff.mp done
  have above := passes (minValueValidator ctx.minimumTtl) (by simp)
  have below := passes (maxValueValidator maximumTtl) (by simp)
  rw [minValueValidator, ite_eq_left_iff] at above
  rw [maxValueValidator, ite_eq_left_iff] at below
  refine ⟨same, ?_, ?_⟩
  · by_contra low
    exact absurd (above (by omega)) (by simp)
  · by_contra high
    exact absurd (below high) (by simp)

/-- The texts of the records are trimmed. -/
theorem Gives.records_of_run {ctx : Context} {root : Root} {records : Option (List Text)}
    (done : runRecords ctx root data = .ok records) : records = some (contents.map strip) := by
  have items : (contents.map Json.str).map runRecord = contents.map fun s => runRecord (.str s) :=
    List.map_map
  rw [runRecords, gives.records] at done
  dsimp only at done
  rw [items] at done
  split at done
  · next fine =>
    rw [andThen, validateRecords, itemValues_strs fine] at done
    split at done
    · cases done
    · exact (Except.ok.inj done).symm
  · cases done

/-- What valid data are turned into: their TTL, and canonical forms of their records. -/
theorem Gives.attrs_of_run {ctx : Context} {root : Root} {instance? : Instance} {attrs : Attrs}
    {type : Text} (done : runValidation ctx root instance? data = .ok attrs)
    (typed : typeOr instance? attrs = .ok type) :
    attrs.ttl = some (ttl : Int) ∧ ∃ forms, attrs.records = some forms ∧
      List.Forall₂ (fun content form => ctx.dns.canonical (strip content) type = .ok form)
        contents forms := by
  simp only [runValidation, bind_eq_ok_iff] at done
  obtain ⟨fields, converted, -, -, final⟩ := done
  obtain ⟨-, recordsDone, ttlDone, -⟩ := fields_of_toInternalValue converted
  obtain ⟨-, sameType, sameTtl, -⟩ := fields_of_validate final
  refine ⟨sameTtl.trans (gives.ttl_of_run ttlDone).1, ?_⟩
  simp only [validate, bind_eq_ok_iff, pure, Except.pure, Except.ok.injEq] at final
  obtain ⟨wanted, isWanted, records, validated, -, -, rfl⟩ := final
  obtain rfl : wanted = type := Except.ok.inj (isWanted.symm.trans typed)
  obtain ⟨forms, isForms, canonical⟩ :=
    forms_of_validateContents (gives.records_of_run recordsDone) validated
  rw [List.forall₂_map_left_iff] at canonical
  exact ⟨forms, isForms, canonical⟩

end Row

/-- Data that have been saved: nothing where there are no records, and the canonical forms of the
records with the TTL otherwise. -/
def KeptAs (env : Env) (item : Item) (ttl : Nat) (contents : List Text) (after : Option RRset) :
    Prop :=
  if contents = [] then after = none
  else ∃ forms records, List.Forall₂ (fun content form =>
      env.dns.canonical (strip content) item.1 = .ok form) contents forms ∧
    cleanRecords env item forms = .ok records ∧ after = some ⟨ttl, records⟩

section List

variable {method : Method} {ctx : Context} {selected : Finset Item} {rows : List Json}

/-- The type that a valid row is checked for is the one that it is stored with. -/
theorem typeOr_validated (valid : Valid (bulkRequest method ctx selected) rows) {row : Entries}
    (member : row ∈ entries rows) :
    typeOr (knownInstance (bulkRequest method ctx selected) (keyOfRow row))
      (validated (bulkRequest method ctx selected) row) = .ok (storedItem row).1 := by
  have validRow := validRow_of_mem rfl valid member
  obtain ⟨-, -, -, done⟩ := valid.of_mem member
  have child : ValidChild (bulkRequest method ctx selected).ctx _ _ :=
    validChild_of_runValidation done
  have isType := validRow.type
  cases known : knownInstance (bulkRequest method ctx selected) (keyOfRow row) with
  | some instance' =>
    rw [known] at child
    rw [child.typeOr_known, (validRow.known instance' known).1]
  | none =>
    rw [known] at child
    obtain ⟨type, given, typed⟩ := child.typeOr_new
    rw [typed, Option.some.inj (given.symm.trans isType)]

theorem row_unique (valid : Valid (bulkRequest method ctx selected) rows)
    (checked : Checked (bulkRequest method ctx selected) rows) {data other : Entries}
    (member : data ∈ entries rows) (alsoMember : other ∈ entries rows)
    (same : keyOfRow other = keyOfRow data) : other = data := by
  obtain ⟨position, here⟩ := List.getElem?_of_mem member
  obtain ⟨another, there⟩ := List.getElem?_of_mem alsoMember
  have rowHere := valid.rowAt_iff.mpr here
  have rowThere := valid.rowAt_iff.mpr there
  by_cases apart : another = position
  · subst apart
    exact rowThere.unique rowHere
  · have clash : Duplicate id rows position data :=
      ⟨another, other, rowThere, apart, by rw [readKey_id, readKey_id, same]⟩
    exact absurd clash ((checked_iff_of_valid valid).mp checked position data rowHere).1

theorem keptAs_of_outcome {env : Env} {data : Entries} {item : Item} {ttl : Nat}
    {contents : List Text} {before after : Option RRset} (gives : Gives data item ttl contents)
    (positive : before = none ∨ 0 < ttl) (sameDns : env.dns = ctx.dns)
    (valid : Valid (bulkRequest method ctx selected) rows) (member : data ∈ entries rows)
    (only : ∀ other ∈ entries rows, storedItem other = storedItem data → other = data)
    (outcome : Outcome env (bulkRequest method ctx selected) rows data before after) :
    KeptAs env (storedItem data) ttl contents after := by
  obtain ⟨-, -, -, done⟩ := valid.of_mem member
  obtain ⟨isTtl, forms, isForms, canonical⟩ :=
    gives.attrs_of_run done (typeOr_validated valid member)
  have canonical : List.Forall₂ (fun content form =>
      env.dns.canonical (strip content) (storedItem data).1 = .ok form) contents forms := by
    rw [sameDns]
    exact canonical
  unfold KeptAs
  split
  · next nothing =>
    have emptied := gives.isEmptyRow_iff.mpr nothing
    cases before with
    | none => exact outcome.skipped rfl data member rfl emptied
    | some old => exact outcome.emptied old rfl emptied
  · next something =>
    have nonempty : isEmptyRow data = false := by
      rw [← Bool.not_eq_true, gives.isEmptyRow_iff]
      exact something
    refine ⟨forms, ?_⟩
    cases before with
    | none =>
      obtain ⟨other, there, same, created⟩ := outcome.created rfl fun other there same =>
        only other there same ▸ nonempty
      obtain rfl := only other there same
      obtain ⟨records, n, new, isRecords, given, -, clean, rfl⟩ := created
      obtain rfl := Option.some.inj (isForms.symm.trans isRecords)
      obtain rfl := Option.some.inj (isTtl.symm.trans given)
      exact ⟨new, canonical, clean, rfl⟩
    | some old =>
      obtain ⟨new, clean, -, rfl⟩ := outcome.updated old rfl nonempty
      refine ⟨new, canonical, clean forms isForms, ?_⟩
      have kept : ttlAfter old.ttl (some (ttl : Int)) = ttl := by
        have positive : 0 < ttl := positive.resolve_left (by simp)
        rw [ttlAfter, if_neg (by omega)]
        rfl
      rw [isTtl, kept]

end List

end DesecStack.Records.TextRows
