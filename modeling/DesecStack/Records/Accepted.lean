/- module: DesecStack/Records/Accepted
   layer: lemmas
   digest: When a list of rows is accepted, and the data that it is turned into. -/

import DesecStack.Records.Validated

set_option autoImplicit false
set_option relaxedAutoImplicit false

namespace DesecStack.Records.Accepted

open Library.PyText
open Library.Runs (bind_eq_ok_iff mapM_eq_ok_iff map_eq_of_forall₂)
open Changes.Models (RRset Item RRsets cname)
open Fields Serializer ListSerializer Rows Validated

/-- A validation error always says something. -/
def Telling {α : Type} (outcome : Fields.Outcome α) : Prop := outcome ≠ .error (.invalid [])

section Telling

variable {α β : Type}

private theorem telling_bind {x : Fields.Outcome α} {f : α → Fields.Outcome β} (first : Telling x)
    (rest : ∀ a, Telling (f a)) : Telling (x >>= f) := by
  cases x with
  | error raised => simpa [Telling, bind, Except.bind] using first
  | ok a => exact rest a

private theorem telling_ok (a : α) : Telling (.ok a : Fields.Outcome α) := by simp [Telling]

private theorem telling_nonFieldError (message : Text) :
    Telling (nonFieldError message : Outcome α) := by
  simp [Telling, nonFieldError]

private theorem telling_mapM {f : α → Fields.Outcome β} (each : ∀ a, Telling (f a)) :
    ∀ l : List α, Telling (l.mapM f) := by
  intro l
  induction l with
  | nil => exact telling_ok []
  | cons a rest ih =>
    rw [List.mapM_cons]
    exact telling_bind (each a) fun b => telling_bind ih fun bs => telling_ok (b :: bs)

end Telling

section Child

variable (ctx : Context) (root : Root) (instance? : Instance)

private theorem telling_typeOr (attrs : Attrs) : Telling (typeOr instance? attrs) := by
  unfold typeOr Telling
  split <;> simp

private theorem telling_toInternalValue (data : Entries) :
    Telling (Serializer.toInternalValue ctx root instance? data) := by
  unfold Serializer.toInternalValue
  dsimp only
  split
  · exact telling_ok _
  · next errors some =>
    intro empty
    simp only [Except.error.injEq, Raised.invalid.injEq] at empty
    exact some empty

private theorem telling_runValidators (attrs : Attrs) :
    Telling (Serializer.runValidators ctx root instance? attrs) := by
  unfold Serializer.runValidators
  refine telling_bind ?_ fun _ => telling_bind ?_ fun unique => telling_bind ?_ fun exclusion => ?_
  · unfold permissionValidator
    refine telling_bind ?_ fun subname =>
      telling_bind (telling_typeOr instance? attrs) fun type => ?_
    · unfold subnameOr Telling
      split <;> simp
    · unfold Telling
      split <;> simp
  · unfold uniqueTogetherValidator
    split <;> first | exact telling_ok _ | simp [Telling]
  · unfold exclusionConstraintValidator
    by_cases many : root.many = true
    · rw [if_pos many]
      exact telling_ok _
    · rw [if_neg many]
      split <;> first | exact telling_ok _ | simp [Telling]
  · unfold Telling
    split <;> simp

private theorem telling_validate (attrs : Attrs) : Telling (validate ctx instance? attrs) := by
  unfold validate
  refine telling_bind (telling_typeOr instance? attrs) fun type => telling_bind ?_ fun records =>
    telling_bind ?_ fun _ => telling_ok _
  · unfold validateContents
    split
    · exact telling_ok none
    · refine telling_bind (telling_mapM (fun content => ?_) _) fun canonical =>
        telling_bind ?_ fun _ => telling_bind ?_ fun _ => telling_bind ?_ fun _ => telling_ok _
      · split
        · exact telling_ok _
        · exact telling_nonFieldError _
      · unfold validateCiUniqueness
        split
        · exact telling_nonFieldError _
        · exact telling_ok ()
      · unfold validateLength
        dsimp only
        split
        · exact telling_nonFieldError _
        · exact telling_ok ()
      · unfold validateBlockedContent
        split
        · split
          · exact telling_nonFieldError _
          · exact telling_ok ()
        · exact telling_ok ()
  · unfold validateNs Telling
    split
    · split
      · simp
      · split
        · simp
        · split <;> simp
    · simp

end Child

section List

variable {request : ListSerializer.Request} {rows : List Json}

private theorem telling_validateRow (data : Entries) : Telling (validateRow request data) :=
  telling_bind (telling_toInternalValue _ _ _ _) fun attrs =>
    telling_bind (telling_runValidators _ _ _ _) fun _ => telling_validate _ _ attrs

private theorem telling_checkRow (index collapsed : Index) (position : Nat) (data : Entries) :
    Telling (checkRow index collapsed position data) := by
  unfold checkRow
  dsimp only
  split
  · exact telling_nonFieldError _
  · split
    · exact telling_ok ()
    · split
      · exact telling_ok ()
      · split
        · simp [Telling]
        · exact telling_nonFieldError _

private theorem shape_error_ne_nil {row : Json} {errors : Errors}
    (bad : shape row = .error errors) :
    errors ≠ [] := by
  unfold shape at bad
  split at bad
  · split at bad
    · exact absurd bad (by simp)
    · next rejected =>
      rintro rfl
      exact rejected (Except.error.inj bad)
  · rw [← Except.error.inj bad]
    simp

/-- A row gives data, and no error, when its checks and its own validation succeed. -/
theorem rowResult_ok_iff {index collapsed : Index} {row : Nat × Json} :
    (∃ result, rowResult request index collapsed row = .ok result ∧ errorsOf result = []) ↔
      ∃ data attrs, shape row.2 = .ok data ∧ checkRow index collapsed row.1 data = .ok () ∧
        validateRow request data = .ok attrs ∧
        rowResult request index collapsed row = .ok (.ok attrs) := by
  constructor
  · rintro ⟨result, done, quiet⟩
    unfold rowResult at done
    split at done
    · next errors bad =>
      obtain rfl := Except.ok.inj done
      exact absurd quiet (shape_error_ne_nil bad)
    · next data shaped =>
      cases ran : runRow request index collapsed row.1 data with
      | ok attrs =>
        have steps := ran
        simp only [runRow, bind_eq_ok_iff] at steps
        obtain ⟨_, checked, validated⟩ := steps
        exact ⟨data, attrs, shaped, checked, validated, by simp [rowResult, shaped, ran, collect]⟩
      | error raised =>
        cases raised with
        | invalid errors =>
          simp only [ran, collect, Except.ok.injEq] at done
          have silent : errors = [] := by simpa [← done, errorsOf] using quiet
          have telling : Telling (runRow request index collapsed row.1 data) :=
            telling_bind (telling_checkRow _ _ _ _) fun _ => telling_validateRow data
          exact absurd (silent ▸ ran) telling
        | _ => simp [ran, collect] at done
  · rintro ⟨data, attrs, -, -, -, done⟩
    exact ⟨.ok attrs, done, rfl⟩

/-- The rows of a list whose JSON types are right. -/
def entries (rows : List Json) : List Entries := rows.filterMap fun row => (shape row).toOption

/-- The data that a row is turned into. -/
def validated (request : ListSerializer.Request) (data : Entries) : Attrs :=
  (validateRow request data).toOption.getD ⟨none, none, none, none⟩

/-- Every row is valid by itself. -/
def Valid (request : ListSerializer.Request) (rows : List Json) : Prop :=
  ∀ row ∈ rows, ∃ data attrs, shape row = .ok data ∧ validateRow request data = .ok attrs

private theorem Valid.entries_eq (valid : Valid request rows) :
    (entries rows).map Except.ok = rows.map shape := by
  induction rows with
  | nil => rfl
  | cons row rest ih =>
    obtain ⟨data, -, shaped, -⟩ := valid row (List.mem_cons_self ..)
    have later := ih fun other member => valid other (List.mem_cons_of_mem _ member)
    simp only [entries, List.filterMap_cons, shaped, Except.toOption, List.map_cons]
    exact congrArg _ later

theorem Valid.rowAt_iff (valid : Valid request rows) {position : Nat} {data : Entries} :
    RowAt rows position data ↔ (entries rows)[position]? = some data := by
  have same := congrArg (·[position]?) valid.entries_eq
  simp only [List.getElem?_map] at same
  constructor
  · rintro ⟨row, found, shaped⟩
    cases at_p : (entries rows)[position]? with
    | none => simp [at_p, found] at same
    | some other =>
      simp only [at_p, found, Option.map_some, shaped, Option.some.injEq, Except.ok.injEq] at same
      rw [same]
  · intro found
    cases at_p : rows[position]? with
    | none => simp [at_p, found] at same
    | some row =>
      simp only [at_p, found, Option.map_some, Option.some.injEq] at same
      exact ⟨row, at_p, same.symm⟩

theorem Valid.of_mem (valid : Valid request rows) {data : Entries} (member : data ∈ entries rows) :
    ∃ row ∈ rows, shape row = .ok data
      ∧ validateRow request data = .ok (validated request data) := by
  obtain ⟨row, there, shaped⟩ := List.mem_filterMap.mp member
  obtain ⟨other, attrs, ok, done⟩ := valid row there
  rw [ok] at shaped
  obtain rfl := Option.some.inj shaped
  exact ⟨row, there, ok, by simp [validated, done, Except.toOption]⟩

private theorem Valid.answered (valid : Valid request rows) : rows.findSome? queryError = none := by
  rw [List.findSome?_eq_none_iff]
  intro row member
  obtain ⟨data, attrs, shaped, done⟩ := valid row member
  exact queryError_of_validateRow shaped done

/-- The checks of all rows against each other and the database succeed. -/
def Checked (request : ListSerializer.Request) (rows : List Json) : Prop :=
  ∀ position data, RowAt rows position data →
    checkRow (indices request.ctx.rrsets rows) (collapsedIndices request.ctx.rrsets rows) position
      data = .ok ()

/-- A row that passes its checks and is valid. -/
private def Passes (request : ListSerializer.Request) (index collapsed : Index)
    (row : Nat × Json) : Prop :=
  ∃ data attrs, shape row.2 = .ok data ∧ checkRow index collapsed row.1 data = .ok () ∧
    validateRow request data = .ok attrs

private theorem rows_pass_iff (request : ListSerializer.Request) (index collapsed : Index)
    (l : List (Nat × Json)) :
    ∀ result : List Attrs, (∃ results, l.mapM (rowResult request index collapsed) = .ok results ∧
        (∀ r ∈ results, errorsOf r = []) ∧ results.filterMap Except.toOption = result) ↔
      (∀ row ∈ l, Passes request index collapsed row) ∧
        result = (entries (l.map Prod.snd)).map (validated request) := by
  induction l with
  | nil =>
    intro result
    constructor
    · rintro ⟨results, done, -, rfl⟩
      obtain rfl := Except.ok.inj done
      exact ⟨by simp, rfl⟩
    · rintro ⟨-, rfl⟩
      exact ⟨[], rfl, by simp, rfl⟩
  | cons row rest ih =>
    intro result
    constructor
    · rintro ⟨results, done, quiet, rfl⟩
      simp only [List.mapM_cons, bind_eq_ok_iff, pure, Except.pure, Except.ok.injEq] at done
      obtain ⟨own, first, others, later, rfl⟩ := done
      obtain ⟨data, attrs, shaped, checked, valid, same⟩ :=
        rowResult_ok_iff.mp ⟨own, first, quiet own (List.mem_cons_self ..)⟩
      obtain rfl := Except.ok.inj (same.symm.trans first)
      obtain ⟨pass, tail⟩ := (ih _).mp
        ⟨others, later, fun r member => quiet r (List.mem_cons_of_mem _ member), rfl⟩
      refine ⟨List.forall_mem_cons.mpr ⟨⟨data, attrs, shaped, checked, valid⟩, pass⟩, ?_⟩
      simp only [List.filterMap_cons, Except.toOption, entries, List.map_cons, shaped, validated,
        valid, Option.getD_some, List.cons.injEq, true_and]
      exact tail
    · rintro ⟨pass, rfl⟩
      obtain ⟨⟨data, attrs, shaped, checked, valid⟩, others⟩ := List.forall_mem_cons.mp pass
      obtain ⟨results, later, quiet, tail⟩ := (ih _).mpr ⟨others, rfl⟩
      have first : rowResult request index collapsed row = .ok (.ok attrs) := by
        simp [rowResult, shaped, runRow, checked, valid, collect, bind, Except.bind]
      refine ⟨.ok attrs :: results, ?_, ?_, ?_⟩
      · simp only [List.mapM_cons, bind_eq_ok_iff, pure, Except.pure, Except.ok.injEq]
        exact ⟨_, first, _, later, rfl⟩
      · exact List.forall_mem_cons.mpr ⟨rfl, quiet⟩
      · simp [Except.toOption, entries, shaped, validated, valid, tail]

theorem toInternalValue_of_answered (answered : rows.findSome? queryError = none) :
    ListSerializer.toInternalValue request (.list rows) = checkRows request rows := by
  rw [ListSerializer.toInternalValue, answered]

private theorem checkRows_ok_iff {result : List Attrs} :
    checkRows request rows = .ok result ↔ Valid request rows ∧ Checked request rows ∧
      result = (entries rows).map (validated request) := by
  have onlyRows : (numbered rows).map Prod.snd = rows := by
    simp [numbered, Function.comp_def]
  have pass := rows_pass_iff request (indices request.ctx.rrsets rows)
    (collapsedIndices request.ctx.rrsets rows) (numbered rows) result
  rw [onlyRows] at pass
  have ran : checkRows request rows = .ok result ↔ ∃ results,
      (numbered rows).mapM (rowResult request (indices request.ctx.rrsets rows)
        (collapsedIndices request.ctx.rrsets rows)) = .ok results ∧
        (∀ r ∈ results, errorsOf r = []) ∧ results.filterMap Except.toOption = result := by
    unfold checkRows
    dsimp only
    split
    · next failed => simp [failed]
    · next results done =>
      simp only [done, Except.ok.injEq, exists_eq_left']
      by_cases all : ∀ r ∈ results, errorsOf r = []
      · simp [if_pos all, and_iff_right all]
      · simp [all]
  rw [ran, pass, ← and_assoc]
  refine and_congr_left fun _ => ?_
  constructor
  · intro each
    constructor
    · intro row member
      obtain ⟨n, bound, rfl⟩ := List.getElem_of_mem member
      obtain ⟨data, attrs, shaped, -, valid⟩ := each (n, rows[n])
        (mem_numbered.mpr (List.getElem?_eq_getElem bound))
      exact ⟨data, attrs, shaped, valid⟩
    · rintro position data ⟨row, found, shaped⟩
      obtain ⟨other, attrs, ok, checked, -⟩ := each (position, row) (mem_numbered.mpr found)
      obtain rfl := Except.ok.inj (shaped.symm.trans ok)
      exact checked
  · rintro ⟨valid, checked⟩ row member
    have found := mem_numbered.mp member
    obtain ⟨data, attrs, shaped, done⟩ := valid row.2 (List.mem_of_getElem? found)
    exact ⟨data, attrs, shaped, checked row.1 data ⟨row.2, found, shaped⟩, done⟩

/-- A list is accepted when every row is valid and passes its checks. -/
theorem toInternalValue_ok_iff {result : List Attrs} :
    ListSerializer.toInternalValue request (.list rows) = .ok result ↔
      Valid request rows ∧ Checked request rows ∧
        result = (entries rows).map (validated request) := by
  rw [← checkRows_ok_iff]
  constructor
  · intro done
    cases queried : rows.findSome? queryError with
    | none => rwa [toInternalValue_of_answered queried] at done
    | some raised =>
      rw [ListSerializer.toInternalValue, queried] at done
      cases done
  · intro done
    rwa [toInternalValue_of_answered (checkRows_ok_iff.mp done).1.answered]

end List

end DesecStack.Records.Accepted
