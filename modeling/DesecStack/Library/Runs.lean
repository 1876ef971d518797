/- module: DesecStack/Library/Runs
   layer: library
   digest: Runs of a step that may fail, and what they preserve. -/

import Mathlib.Data.List.Forall2
import Mathlib.Data.List.Induction

set_option autoImplicit false
set_option relaxedAutoImplicit false

namespace DesecStack.Library.Runs

variable {σ α β : Type*}

/-- What every successful step preserves, a successful run preserves. -/
theorem foldlM_preserves {step : σ → α → Option σ} {P : σ → Prop}
    (preserved : ∀ s a s', P s → step s a = some s' → P s') :
    ∀ {l : List α} {s s' : σ}, P s → l.foldlM step s = some s' → P s' := by
  intro l
  induction l with
  | nil =>
    intro s s' holds done
    simp only [List.foldlM_nil, Option.pure_def, Option.some.injEq] at done
    exact done ▸ holds
  | cons a l ih =>
    intro s s' holds done
    simp only [List.foldlM_cons, Option.bind_eq_bind, Option.bind_eq_some_iff] at done
    obtain ⟨next, first, rest⟩ := done
    exact ih (preserved s a next holds first) rest

/-- What every step preserves along with the steps so far, a run has in its end state. -/
theorem foldlM_history {step : σ → α → Option σ} {P : List α → σ → Prop} {start : σ}
    (first : P [] start)
    (preserved : ∀ done s a s', done.foldlM step start = some s → P done s →
      step s a = some s' → P (done ++ [a]) s') :
    ∀ {l : List α} {s : σ}, l.foldlM step start = some s → P l s := by
  intro l
  induction l using List.reverseRecOn with
  | nil =>
    intro s run
    simp only [List.foldlM_nil, Option.pure_def, Option.some.injEq] at run
    exact run ▸ first
  | append_singleton done a ih =>
    intro s run
    simp only [List.foldlM_append, List.foldlM_cons, List.foldlM_nil, Option.bind_eq_bind,
      Option.bind_eq_some_iff, Option.pure_def, Option.some.injEq] at run
    obtain ⟨before, past, after, taken, rfl⟩ := run
    exact preserved done before a after past (ih past) taken

/-- A step that is rejected leaves the state as it was. -/
def attempt (step : σ → α → Option σ) (s : σ) (a : α) : σ := (step s a).getD s

/-- What every successful step preserves, a run with rejected steps preserves too. -/
theorem attempts_preserve {step : σ → α → Option σ} {P : σ → Prop}
    (preserved : ∀ s a s', P s → step s a = some s' → P s') :
    ∀ {l : List α} {s : σ}, P s → P (l.foldl (attempt step) s) := by
  intro l
  induction l with
  | nil =>
    intro s holds
    exact holds
  | cons a l ih =>
    intro s holds
    apply ih
    cases taken : step s a with
    | none => simpa [attempt, taken] using holds
    | some next => simpa [attempt, taken] using preserved s a next holds taken

/-- What holds of each step of a run, up to the first step that fails. -/
def Along (step : σ → α → Option σ) (R : σ → α → σ → Prop) : σ → List α → Prop
  | _, [] => True
  | s, a :: l => ∀ s', step s a = some s' → R s a s' ∧ Along step R s' l

/-- A property of all steps passes to another one along an invariant. -/
theorem along_of_along {step : σ → α → Option σ} {R Q : σ → α → σ → Prop} {I : σ → Prop}
    (passes : ∀ s a s', I s → step s a = some s' → R s a s' → Q s a s' ∧ I s') :
    ∀ {l : List α} {s : σ}, I s → Along step R s l → Along step Q s l := by
  intro l
  induction l with
  | nil =>
    intro s _ _
    trivial
  | cons a l ih =>
    intro s invariant all s' taken
    obtain ⟨first, rest⟩ := all s' taken
    obtain ⟨shown, next⟩ := passes s a s' invariant taken first
    exact ⟨shown, ih next rest⟩

theorem bind_eq_ok_iff {ε γ δ : Type} {x : Except ε γ} {f : γ → Except ε δ} {b : δ} :
    x >>= f = .ok b ↔ ∃ a, x = .ok a ∧ f a = .ok b := by
  cases x <;> simp [bind, Except.bind]

theorem bind_eq_error_iff {ε γ δ : Type} {x : Except ε γ} {f : γ → Except ε δ} {e : ε} :
    x >>= f = .error e ↔ x = .error e ∨ ∃ a, x = .ok a ∧ f a = .error e := by
  cases x <;> simp [bind, Except.bind]

/-- A reflexive and transitive relation between the states of each step relates those of a run. -/
theorem foldlM_related {ε γ δ : Type} {R : γ → γ → Prop} (refl : ∀ s, R s s)
    (trans : ∀ {first second third}, R first second → R second third → R first third)
    {step : γ → δ → Except ε γ} {l : List δ}
    (each : ∀ a ∈ l, ∀ s s', step s a = .ok s' → R s s') :
    ∀ {s s' : γ}, l.foldlM step s = .ok s' → R s s' := by
  induction l with
  | nil =>
    intro s s' done
    simp only [List.foldlM_nil, pure, Except.pure, Except.ok.injEq] at done
    exact done ▸ refl s
  | cons a rest ih =>
    intro s s' done
    simp only [List.foldlM_cons, bind_eq_ok_iff] at done
    obtain ⟨next, first, later⟩ := done
    have head := each a (List.mem_cons_self ..) s next first
    exact trans head (ih (fun b member => each b (List.mem_cons_of_mem _ member)) later)

section OrFails

variable {ε γ δ : Type}

/-- A computation that does what another one does, or fails. -/
def OrFails (x y : Except ε γ) : Prop := x = y ∨ ∃ e, x = .error e

theorem OrFails.refl (x : Except ε γ) : OrFails x x := Or.inl rfl

theorem OrFails.bind {x y : Except ε γ} {f g : γ → Except ε δ} (first : OrFails x y)
    (later : ∀ a, OrFails (f a) (g a)) : OrFails (x >>= f) (y >>= g) := by
  rcases first with same | ⟨e, failed⟩
  · subst same
    cases x with
    | error e => exact OrFails.refl _
    | ok a => exact later a
  · exact Or.inr ⟨e, by simp [failed, Bind.bind, Except.bind]⟩

theorem OrFails.foldlM {step faulty : δ → γ → Except ε δ} {l : List γ}
    (each : ∀ a ∈ l, ∀ s, OrFails (faulty s a) (step s a)) (s : δ) :
    OrFails (l.foldlM faulty s) (l.foldlM step s) := by
  induction l generalizing s with
  | nil => exact OrFails.refl _
  | cons a l ih =>
    rw [List.foldlM_cons, List.foldlM_cons]
    exact (each a (List.mem_cons_self ..) s).bind fun next =>
      ih (fun b member => each b (List.mem_cons_of_mem _ member)) next

theorem OrFails.ok {x y : Except ε γ} (either : OrFails x y) {a : γ} (done : x = .ok a) :
    y = .ok a := by
  rcases either with same | ⟨e, failed⟩
  · rw [← same, done]
  · exact absurd (failed.symm.trans done) (by simp)

end OrFails

theorem mapM_eq_some_iff {f : α → Option β} :
    ∀ {l : List α} {l' : List β},
      l.mapM f = some l' ↔ List.Forall₂ (fun a b => f a = some b) l l' := by
  intro l
  induction l with
  | nil =>
    intro l'
    simp [eq_comm]
  | cons a l ih =>
    intro l'
    simp only [List.mapM_cons, Option.bind_eq_bind, Option.bind_eq_some_iff, Option.pure_def,
      Option.some.injEq, ih, List.forall₂_cons_left_iff]
    grind

theorem mapM_eq_ok_iff {ε γ δ : Type} {f : γ → Except ε δ} :
    ∀ {l : List γ} {l' : List δ},
      l.mapM f = .ok l' ↔ List.Forall₂ (fun a b => f a = .ok b) l l' := by
  intro l
  induction l with
  | nil =>
    intro l'
    simp [pure, Except.pure, eq_comm]
  | cons a l ih =>
    intro l'
    simp only [List.mapM_cons, bind_eq_ok_iff, pure, Except.pure, Except.ok.injEq, ih,
      List.forall₂_cons_left_iff]
    grind

/-- A loop fails at the first element that does. -/
theorem mapM_eq_error_iff {ε γ δ : Type} {f : γ → Except ε δ} {e : ε} :
    ∀ {l : List γ}, l.mapM f = .error e ↔
      ∃ (i : Nat) (a : γ), l[i]? = some a ∧ f a = .error e ∧
        ∀ j < i, ∀ b, l[j]? = some b → ∃ c, f b = .ok c := by
  intro l
  induction l with
  | nil => simp [pure, Except.pure]
  | cons first rest ih =>
    rw [List.mapM_cons, bind_eq_error_iff]
    have tail (c : δ) : (rest.mapM f >>= fun ds => (pure (c :: ds) : Except ε (List δ)))
      = .error e ↔
        rest.mapM f = .error e := by
      cases rest.mapM f <;> simp [bind, Except.bind, pure, Except.pure]
    simp only [tail, ih]
    constructor
    · rintro (failed | ⟨c, done, i, a, found, failed, before⟩)
      · exact ⟨0, first, rfl, failed, fun j impossible => absurd impossible (Nat.not_lt_zero j)⟩
      · refine ⟨i + 1, a, by simpa using found, failed, fun j earlier b there => ?_⟩
        cases j with
        | zero =>
          obtain rfl : first = b := by simpa using there
          exact ⟨c, done⟩
        | succ j => exact before j (by omega) b (by simpa using there)
    · rintro ⟨i, a, found, failed, before⟩
      cases i with
      | zero =>
        obtain rfl : first = a := by simpa using found
        exact Or.inl failed
      | succ i =>
        obtain ⟨c, done⟩ := before 0 (by omega) first rfl
        refine Or.inr ⟨c, done, i, a, by simpa using found, failed, fun j earlier b there => ?_⟩
        exact before (j + 1) (by omega) b (by simpa using there)

theorem mapM_congr {f g : α → Option β} {l : List α} (same : ∀ a ∈ l, f a = g a) :
    l.mapM f = l.mapM g := by
  induction l with
  | nil => rfl
  | cons a l ih =>
    rw [List.mapM_cons, List.mapM_cons, same a (List.mem_cons_self ..),
      ih fun b member => same b (List.mem_cons_of_mem _ member)]

theorem mapM_isSome {f : α → Option β} {l : List α} (all : ∀ a ∈ l, (f a).isSome) :
    (l.mapM f).isSome := by
  induction l with
  | nil => rfl
  | cons a l ih =>
    obtain ⟨b, head⟩ := Option.isSome_iff_exists.mp (all a (List.mem_cons_self ..))
    obtain ⟨rest, tail⟩ := Option.isSome_iff_exists.mp
      (ih fun c member => all c (List.mem_cons_of_mem _ member))
    simp [head, tail]

theorem exists_of_forall₂_left {R : α → β → Prop} {l : List α} {l' : List β}
    (all : List.Forall₂ R l l') {a : α} (member : a ∈ l) : ∃ b ∈ l', R a b := by
  induction all with
  | nil => exact absurd member List.not_mem_nil
  | cons head _ ih =>
    rcases List.mem_cons.mp member with rfl | later
    · exact ⟨_, List.mem_cons_self .., head⟩
    · obtain ⟨b, found, related⟩ := ih later
      exact ⟨b, List.mem_cons_of_mem _ found, related⟩

theorem flatten_of_single {f : α → Option (List β)} {a : α} :
    ∀ {l : List α} {results : List (List β)}, l.Nodup →
      (∀ other ∈ l, other ≠ a → f other = some []) → l.mapM f = some results →
      results.flatten = [] ∨ f a = some results.flatten := by
  intro l
  induction l with
  | nil =>
    intro results _ _ done
    left
    have none : results = [] := by simpa [eq_comm] using done
    simp [none]
  | cons first rest ih =>
    intro results nodup silent done
    obtain ⟨absent, nodup⟩ := List.nodup_cons.mp nodup
    simp only [List.mapM_cons, Option.bind_eq_bind, Option.bind_eq_some_iff, Option.pure_def,
      Option.some.injEq] at done
    obtain ⟨own, head, later, tail, rfl⟩ := done
    have others := ih nodup (fun other member => silent other (List.mem_cons_of_mem _ member)) tail
    by_cases same : first = a
    · subst same
      have quiet : later.flatten = [] := by
        rw [List.flatten_eq_nil_iff]
        intro result inLater
        obtain ⟨other, inRest, found⟩ :=
          exists_of_forall₂_left (mapM_eq_some_iff.mp tail).flip inLater
        have differs : other ≠ first := fun h => absent (h ▸ inRest)
        exact (Option.some.inj ((silent other (List.mem_cons_of_mem _ inRest) differs).symm.trans
          found)).symm
      right
      rw [List.flatten_cons, quiet, List.append_nil, head]
    · obtain rfl := Option.some.inj (head.symm.trans (silent first (List.mem_cons_self ..) same))
      simpa using others

theorem map_eq_of_forall₂ {γ : Type*} {R : α → β → Prop} {l : List α} {l' : List β}
    {f : α → γ} {g : β → γ} (all : List.Forall₂ R l l') (same : ∀ a b, R a b → g b = f a) :
    l'.map g = l.map f := by
  induction all with
  | nil => rfl
  | cons head _ ih => simp [same _ _ head, ih]

end DesecStack.Library.Runs
