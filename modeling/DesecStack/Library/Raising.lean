/- module: DesecStack/Library/Raising
   layer: library
   digest: Computations that raise, handlers that catch some exceptions, and what may escape. -/

import DesecStack.Library.Runs

set_option autoImplicit false
set_option relaxedAutoImplicit false

namespace DesecStack.Library.Raising

variable {ε α β : Type}

/-- A `try` whose handlers pass: the result, or nothing where an exception has been caught. -/
def attempt (caught : ε → Bool) (body : Except ε α) : Except ε (Option α) :=
  match body with
  | .ok a => .ok (some a)
  | .error e => if caught e then .ok none else .error e

/-- A `try` with a handler that raises another exception. -/
def replace (caught : ε → Bool) (other : ε) (body : Except ε α) : Except ε α :=
  match body with
  | .ok a => .ok a
  | .error e => .error (if caught e then other else e)

/-- Only exceptions of a kind escape. -/
def Raises (kind : ε → Prop) (body : Except ε α) : Prop := ∀ e, body = .error e → kind e

section Rules

variable {kind : ε → Prop} {caught : ε → Bool}

theorem raises_ok (a : α) : Raises kind (.ok a : Except ε α) := nofun

theorem raises_pure (a : α) : Raises kind (pure a : Except ε α) := raises_ok a

theorem raises_error {e : ε} (admitted : kind e) : Raises kind (.error e : Except ε α) := by
  intro other raised
  cases raised
  exact admitted

theorem Raises.bind {x : Except ε α} {f : α → Except ε β} (first : Raises kind x)
    (later : ∀ a, x = .ok a → Raises kind (f a)) : Raises kind (x >>= f) := by
  intro e raised
  rcases Runs.bind_eq_error_iff.mp raised with failed | ⟨a, done, failed⟩
  · exact first e failed
  · exact later a done e failed

theorem Raises.mono {other : ε → Prop} {x : Except ε α} (raises : Raises kind x)
    (weaker : ∀ e, kind e → other e) : Raises other x := fun e raised => weaker e (raises e raised)

theorem Raises.attempt {x : Except ε α} (raises : Raises (fun e => caught e = true) x) :
    Raises kind (attempt caught x) := by
  intro e raised
  cases x with
  | ok a => cases raised
  | error e' =>
    rw [Raising.attempt, if_pos (raises e' rfl)] at raised
    cases raised

theorem Raises.replace {other : ε} {x : Except ε α} (raises : Raises (fun e => caught e = true) x)
    (admitted : kind other) : Raises kind (replace caught other x) := by
  intro e raised
  cases x with
  | ok a => cases raised
  | error e' =>
    rw [Raising.replace, if_pos (raises e' rfl)] at raised
    cases raised
    exact admitted

theorem raises_ite {p : Prop} [Decidable p] {x y : Except ε α} (first : p → Raises kind x)
    (second : ¬ p → Raises kind y) : Raises kind (if p then x else y) := by
  split
  · next holds => exact first holds
  · next fails => exact second fails

theorem raises_mapM {f : α → Except ε β} {l : List α} (each : ∀ a ∈ l, Raises kind (f a)) :
    Raises kind (l.mapM f) := by
  intro e raised
  obtain ⟨i, a, found, failed, -⟩ := Runs.mapM_eq_error_iff.mp raised
  exact each a (List.mem_of_getElem? found) e failed

theorem raises_foldlM {f : β → α → Except ε β} {l : List α} (each : ∀ b a, Raises kind (f b a)) :
    ∀ b, Raises kind (l.foldlM f b) := by
  induction l with
  | nil => exact raises_pure
  | cons a l ih =>
    intro b
    rw [List.foldlM_cons]
    exact (each b a).bind fun next _ => ih next

theorem attempt_eq_some_iff {x : Except ε α} {a : α} :
    attempt caught x = .ok (some a) ↔ x = .ok a := by
  cases x with
  | ok b => simp [attempt]
  | error e =>
    rw [attempt]
    split <;> simp

theorem ok_of_replace {other : ε} {x : Except ε α} {a : α}
    (done : replace caught other x = .ok a) : x = .ok a := by
  cases x with
  | ok b => exact done
  | error e => cases done

theorem ok_of_mapError {ε' : Type} {f : ε → ε'} {x : Except ε α} {a : α}
    (done : x.mapError f = .ok a) : x = .ok a := by
  cases x with
  | ok b => exact congrArg Except.ok (Except.ok.inj done)
  | error e => cases done

theorem exists_of_isOk {x : Except ε α} (good : x.isOk = true) : ∃ a, x = .ok a := by
  cases x with
  | ok a => exact ⟨a, rfl⟩
  | error e => cases good

end Rules

end DesecStack.Library.Raising
