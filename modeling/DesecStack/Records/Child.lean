/- module: DesecStack/Records/Child
   layer: lemmas
   digest: What is known of valid data for one RRset, in a list or not. -/

import DesecStack.Records.Validated

set_option autoImplicit false
set_option relaxedAutoImplicit false

namespace DesecStack.Records.Child

open Library.PyText
open Library.Surrogates
open Library.Runs (bind_eq_ok_iff)
open Changes.Models (RRset Item)
open Fields Serializer
open Validated
open Rows (Entries)

theorem charField_ok {field : CharField} {data : Json} {value : Text}
    (done : field.runValidation data = .ok (some value)) :
    data.scalar.map Str.strip = some (.text value) := by
  unfold CharField.runValidation at done
  dsimp only at done
  split at done
  · next blank =>
    split at done
    · rw [blank, Option.some.inj (Except.ok.inj done)]
    · exact absurd done (by simp [fail])
  · split at done
    · exact absurd done (by simp [fail])
    · exact absurd done (by simp [fail])
    · exact absurd done (by simp [fail])
    · next text _ _ trimmed =>
      obtain ⟨s, rfl, same, -⟩ := text_of_charField done
      rw [trimmed, Option.some.inj same]

theorem value_of_validateSubname {ctx : Context} {instance? : Instance} {value subname : Text}
    (done : validateSubname ctx instance? value = .ok (some subname)) : subname = value := by
  unfold validateSubname at done
  split at done
  · exact absurd done (by simp [fail])
  · split at done
    · exact absurd done (by simp [fail])
    · exact (Option.some.inj (Except.ok.inj done)).symm

theorem value_of_validateType {ctx : Context} {value type : Text}
    (done : validateType ctx value = .ok (some type)) : type = value := by
  unfold validateType at done
  split at done
  · exact (Option.some.inj (Except.ok.inj done)).symm
  · split at done
    · exact absurd done (by simp [fail])
    · split at done <;> exact absurd done (by simp [fail])

private theorem charField_validated {field : CharField} {data : Json} {value : Text}
    (done : field.runValidation data = .ok (some value)) (unblank : value ≠ []) :
    ∀ validator ∈ field.validators, validator (.text value) = none := by
  have trimmed := charField_ok done
  unfold CharField.runValidation at done
  dsimp only at done
  split at done
  · next blank =>
    exact absurd (Str.text.inj (Option.some.inj (trimmed.symm.trans blank))) unblank
  · split at done
    · exact absurd done (by simp [fail])
    · exact absurd done (by simp [fail])
    · exact absurd done (by simp [fail])
    · next text _ _ isText =>
      obtain ⟨s, rfl, same, -, accepted⟩ := text_of_charField done
      obtain rfl := Option.some.inj same
      intro validator member
      exact accepted validator (by simp [member])

theorem type_of_child {ctx : Context} {root : Root} {instance? : Instance} {entries : Entries}
    {type : Text} (done : runType ctx root instance? entries = .ok (some type)) :
    typesManageable ctx.dns type = true ∧
      ∀ known, instance? = some known → known.1.1 = type := by
  unfold runType at done
  split at done
  · split at done <;> exact absurd done (by simp [fail])
  · next value found =>
    obtain ⟨inner, ran, own⟩ := andThen_ok done
    obtain rfl := value_of_validateType own
    have manageable : typesManageable ctx.dns type = true := by
      by_contra other
      simp only [validateType, other, if_false] at own
      split at own
      · exact absurd own (by simp [fail])
      · split at own <;> exact absurd own (by simp [fail])
    refine ⟨manageable, fun known isKnown => ?_⟩
    have unblank : type ≠ [] := by
      rintro rfl
      simp [typesManageable, typesBackend] at manageable
    have same := charField_validated ran unblank (readOnlyOnUpdateValidator instance?) (by simp)
    simpa [readOnlyOnUpdateValidator, isKnown] using same

theorem subname_of_child {ctx : Context} {root : Root} {instance? : Instance}
    {entries : Entries} {subname : Text}
    (done : runSubname ctx root instance? entries = .ok (some subname)) :
    ∀ known, instance? = some known → known.1.2 = subname := by
  have kept {value : Text} (own : validateSubname ctx instance? value = .ok (some subname)) :
      ∀ known, instance? = some known → known.1.2 = subname := by
    intro known isKnown
    have same := value_of_validateSubname own
    by_contra other
    simp [validateSubname, isKnown, ← same, other, fail] at own
  unfold runSubname at done
  split at done
  · split at done
    · exact absurd done (by simp)
    · split at done
      · exact absurd done (by simp [fail])
      · exact kept done
  · obtain ⟨inner, ran, own⟩ := andThen_ok done
    exact kept own

/-- Valid data for one RRset: what it may say of the type and the subname, and the type that it
is checked for. -/
structure ValidChild (ctx : Context) (instance? : Instance) (attrs : Attrs) : Prop where
  manageable (type : Text) (given : attrs.type = some type) :
    typesManageable ctx.dns type = true
  type (type : Text) (given : attrs.type = some type) (known : Item × RRset)
    (found : instance? = some known) : type = known.1.1
  subname (subname : Text) (given : attrs.subname = some subname) (known : Item × RRset)
    (found : instance? = some known) : subname = known.1.2
  typed : ∃ type, typeOr instance? attrs = .ok type
  nonempty (post : ctx.isPost = true) : attrs.records ≠ some []

theorem validChild_of_runValidation {ctx : Context} {root : Root} {instance? : Instance}
    {entries : Entries} {attrs : Attrs}
    (done : runValidation ctx root instance? entries = .ok attrs) :
    ValidChild ctx instance? attrs := by
  simp only [runValidation, bind_eq_ok_iff] at done
  obtain ⟨fields, converted, _, checked, final⟩ := done
  obtain ⟨subnameDone, recordsDone, -, typeDone⟩ := fields_of_toInternalValue converted
  obtain ⟨sameSubname, sameType, -, -, sameEmpty⟩ := fields_of_validate final
  refine ⟨fun type given => ?_, fun type given known found => ?_,
    fun subname given known found => ?_,
    ?_, fun post empty => ?_⟩
  · rw [← sameType, given] at typeDone
    exact (type_of_child typeDone).1
  · rw [← sameType, given] at typeDone
    exact ((type_of_child typeDone).2 known found).symm
  · rw [← sameSubname, given] at subnameDone
    exact (subname_of_child subnameDone known found).symm
  · obtain ⟨_, type, -, typed, -⟩ := permitted_of_runValidators checked
    exact ⟨type, by simp only [← typed, typeOr, sameType]⟩
  · rcases records_of_runRecords recordsDone with ⟨absent, -, -⟩ | ⟨values, given, -, onPost⟩
    · rw [sameEmpty.mp empty] at absent
      exact absurd absent (by simp)
    · rw [sameEmpty.mp empty] at given
      exact onPost post (Option.some.inj given).symm

/-- The type of data for a known RRset is the stored one. -/
theorem ValidChild.typeOr_known {ctx : Context} {known : Item × RRset} {attrs : Attrs}
    (valid : ValidChild ctx (some known) attrs) : typeOr (some known) attrs = .ok known.1.1 := by
  obtain ⟨type, typed⟩ := valid.typed
  have sameType := valid.type
  unfold typeOr at typed ⊢
  split at typed
  · next given => rw [sameType _ given known rfl]
  · next found _ => rw [Option.some.inj found]
  · next isNone _ => exact absurd isNone (by simp)

/-- The type of data for a new RRset is given. -/
theorem ValidChild.typeOr_new {ctx : Context} {attrs : Attrs} (valid : ValidChild ctx none attrs) :
    ∃ type, attrs.type = some type ∧ typeOr none attrs = .ok type := by
  obtain ⟨type, typed⟩ := valid.typed
  refine ⟨type, ?_, typed⟩
  unfold typeOr at typed
  split at typed
  · next given => rw [given, Except.ok.inj typed]
  · next known _ => exact absurd known (by simp)
  · exact absurd typed (by simp)

end DesecStack.Records.Child
