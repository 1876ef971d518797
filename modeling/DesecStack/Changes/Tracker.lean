/- module: DesecStack/Changes/Tracker
   source: api/desecapi/pdns_change_tracker.py
   digest: The sets a change tracker keeps while it listens to the signals of the models. -/

import DesecStack.Changes.History

set_option autoImplicit false
set_option relaxedAutoImplicit false

namespace DesecStack.Changes.Tracker

open Library.PyText (Text Dict Unicode)
open Library.Journal (Event Life Mark Flip Agrees recordAll_of_life)
open Names.Validators (validateDomainName)
open Models History

structure PDNSChangeTracker where
  domainAdditions : Finset Text
  domainDeletions : Finset Text
  rrSetAdditions : Dict Text (Finset Item)
  rrSetModifications : Dict Text (Finset Item)
  rrSetDeletions : Dict Text (Finset Item)

/-- The tracker on entering its context. -/
def enter : PDNSChangeTracker := ⟨∅, ∅, ∅, ∅, ∅⟩

/-- The three sets of one domain. -/
@[ext] structure Pending where
  additions : Finset Item
  modifications : Finset Item
  deletions : Finset Item

def PDNSChangeTracker.store (t : PDNSChangeTracker) (name : Text) (p : Pending) :
    PDNSChangeTracker :=
  { t with
    rrSetAdditions := t.rrSetAdditions.insert name p.additions
    rrSetModifications := t.rrSetModifications.insert name p.modifications
    rrSetDeletions := t.rrSetDeletions.insert name p.deletions }

/-- The case analysis of `_rr_set_updated`; `none` is a failed assertion or the
`ValueError` at its end. -/
def Pending.update (p : Pending) (item : Item) : (created deleted : Bool) → Option Pending
  | true, false =>
      if item ∈ p.modifications then none
      else some { p with
        additions := insert item p.additions, deletions := p.deletions.erase item }
  | false, true =>
      if item ∈ p.additions then
        some { p with
          additions := p.additions.erase item, modifications := p.modifications.erase item }
      else
        some { p with
          modifications := p.modifications.erase item, deletions := insert item p.deletions }
  | false, false =>
      if item ∈ p.deletions then none
      else some { p with modifications := insert item p.modifications }
  | true, true => none

/-- `_rr_set_updated`; `none` is an exception, a `KeyError` included. -/
def rrSetUpdated (t : PDNSChangeTracker) (name : Text) (item : Item)
    (created deleted : Bool) : Option PDNSChangeTracker := do
  let t := if t.rrSetModifications.lookup name = none then t.store name ⟨∅, ∅, ∅⟩ else t
  let additions ← t.rrSetAdditions.lookup name
  let modifications ← t.rrSetModifications.lookup name
  let deletions ← t.rrSetDeletions.lookup name
  let p ← Pending.update ⟨additions, modifications, deletions⟩ item created deleted
  pure (t.store name p)

/-- `_domain_updated` -/
def domainUpdated (t : PDNSChangeTracker) (name : Text) : (created deleted : Bool) →
    Option PDNSChangeTracker
  | false, false => some t
  | true, true => none
  | true, false =>
      if name ∈ t.domainDeletions then
        some { t with domainDeletions := t.domainDeletions.erase name }
      else some { t with domainAdditions := insert name t.domainAdditions }
  | false, true =>
      if name ∈ t.domainAdditions then
        some { t with domainAdditions := t.domainAdditions.erase name }
      else some { t with domainDeletions := insert name t.domainDeletions }

/-- The handlers `_on_*`. An RR row outlives its RRset in no cascade, so the handler of
deleted RRs always finds the RRset. -/
def receive (t : PDNSChangeTracker) : Signal → Option PDNSChangeTracker
  | .rrPostSave name item _ => rrSetUpdated t name item false false
  | .rrPostDelete name item => rrSetUpdated t name item false false
  | .rrsetPostSave name item created => rrSetUpdated t name item created false
  | .rrsetPostDelete name item => rrSetUpdated t name item false true
  | .domainPostSave name created => domainUpdated t name created false
  | .domainPostDelete name => domainUpdated t name false true

def receiveAll (t : PDNSChangeTracker) (signals : List Signal) : Option PDNSChangeTracker :=
  signals.foldlM receive t

/-- The sets of one domain, empty where the tracker has none. -/
def pending (t : PDNSChangeTracker) (name : Text) : Pending where
  additions := (t.rrSetAdditions.lookup name).getD ∅
  modifications := (t.rrSetModifications.lookup name).getD ∅
  deletions := (t.rrSetDeletions.lookup name).getD ∅

def Pending.mark (p : Pending) (item : Item) : Mark :=
  ⟨item ∈ p.additions, item ∈ p.modifications, item ∈ p.deletions⟩

def mark (t : PDNSChangeTracker) (name : Text) (item : Item) : Mark := (pending t name).mark item

def domainFlip (t : PDNSChangeTracker) (name : Text) : Flip :=
  ⟨name ∈ t.domainAdditions, name ∈ t.domainDeletions⟩

/-- The three dictionaries have the same keys. -/
def Aligned (t : PDNSChangeTracker) : Prop :=
  ∀ name, (t.rrSetAdditions.lookup name).isSome = (t.rrSetModifications.lookup name).isSome ∧
    (t.rrSetDeletions.lookup name).isSome = (t.rrSetModifications.lookup name).isSome

theorem aligned_enter : Aligned enter := fun _ => ⟨rfl, rfl⟩

theorem pending_store (t : PDNSChangeTracker) (name d : Text) (p : Pending) :
    pending (t.store name p) d = if d = name then p else pending t d := by
  by_cases same : d = name
  · subst same
    simp [pending, PDNSChangeTracker.store]
  · simp [pending, PDNSChangeTracker.store, same, Finmap.lookup_insert_of_ne]

theorem aligned_store {t : PDNSChangeTracker} (aligned : Aligned t) (name : Text) (p : Pending) :
    Aligned (t.store name p) := by
  intro d
  by_cases same : d = name
  · subst same
    simp [PDNSChangeTracker.store]
  · simpa [PDNSChangeTracker.store, same, Finmap.lookup_insert_of_ne] using aligned d

@[simp] theorem domainFlip_store (t : PDNSChangeTracker) (name d : Text) (p : Pending) :
    domainFlip (t.store name p) d = domainFlip t d := rfl

@[simp] theorem store_store (t : PDNSChangeTracker) (name : Text) (p q : Pending) :
    (t.store name p).store name q = t.store name q := by
  simp [PDNSChangeTracker.store, Finmap.insert_insert]

theorem rrSetUpdated_eq {t : PDNSChangeTracker} (aligned : Aligned t) (name : Text) (item : Item)
    (created deleted : Bool) :
    rrSetUpdated t name item created deleted
      = ((pending t name).update item created deleted).map (t.store name) := by
  obtain ⟨additions, deletions⟩ := aligned name
  cases found : t.rrSetModifications.lookup name with
  | none =>
    have empty : pending t name = ⟨∅, ∅, ∅⟩ := by
      simp_all [pending]
    have stored : (t.store name ⟨∅, ∅, ∅⟩).store name = t.store name :=
      funext fun p => store_store t name ⟨∅, ∅, ∅⟩ p
    rw [rrSetUpdated, empty, ← stored]
    simp only [found, if_true]
    simp [PDNSChangeTracker.store, Option.map_eq_bind]
  | some modifications =>
    obtain ⟨added, foundAdded⟩ := Option.isSome_iff_exists.mp (by rw [additions, found]; rfl)
    obtain ⟨gone, foundGone⟩ := Option.isSome_iff_exists.mp (by rw [deletions, found]; rfl)
    have whole : pending t name = ⟨added, modifications, gone⟩ := by
      simp [pending, found, foundAdded, foundGone]
    simp [rrSetUpdated, whole, found, foundAdded, foundGone, Option.map_eq_bind]

private theorem update_of_record {p : Pending} {item : Item} {e : Event} {m : Mark}
    (recorded : (p.mark item).record e = some m) :
    ∃ q, p.update item (e = .created) (e = .deleted) = some q ∧ q.mark item = m ∧
      ∀ i, i ≠ item → q.mark i = p.mark i := by
  cases e with
  | created =>
    simp only [Mark.record, Pending.mark, decide_eq_true_eq, Option.ite_none_left_eq_some,
      Option.some.injEq] at recorded
    obtain ⟨unmodified, rfl⟩ := recorded
    exact ⟨{ p with additions := insert item p.additions, deletions := p.deletions.erase item },
      by simp [Pending.update, unmodified], by simp [Pending.mark],
      fun i other => by simp [Pending.mark, other]⟩
  | modified =>
    simp only [Mark.record, Pending.mark, decide_eq_true_eq, Option.ite_none_left_eq_some,
      Option.some.injEq] at recorded
    obtain ⟨undeleted, rfl⟩ := recorded
    exact ⟨{ p with modifications := insert item p.modifications },
      by simp [Pending.update, undeleted], by simp [Pending.mark],
      fun i other => by simp [Pending.mark, other]⟩
  | deleted =>
    by_cases added : item ∈ p.additions
    · refine ⟨{ p with
          additions := p.additions.erase item, modifications := p.modifications.erase item },
        by simp [Pending.update, added], ?_, fun i other => by simp [Pending.mark, other]⟩
      simpa [Mark.record, Pending.mark, added] using recorded
    · refine ⟨{ p with
          modifications := p.modifications.erase item, deletions := insert item p.deletions },
        by simp [Pending.update, added], ?_, fun i other => by simp [Pending.mark, other]⟩
      simpa [Mark.record, Pending.mark, added] using recorded

/-- The tracker takes one signal in as the journal of every RRset and every domain does. -/
structure Received (t : PDNSChangeTracker) (signals : List Signal) (t' : PDNSChangeTracker) :
    Prop where
  aligned : Aligned t'
  marks (d : Text) (i : Item) :
    (events d i signals).foldlM Mark.record (mark t d i) = some (mark t' d i)
  flips (d : Text) : (presences d signals).foldl Flip.record (domainFlip t d) = domainFlip t' d

/-- No assertion of any journal fails along the signals. -/
def Recordable (t : PDNSChangeTracker) (signals : List Signal) : Prop :=
  ∀ d i, ((events d i signals).foldlM Mark.record (mark t d i)).isSome

private theorem received_rrSetUpdated {t : PDNSChangeTracker} (aligned : Aligned t)
    {name : Text} {item : Item} {e : Event} {signal : Signal}
    (said : ∀ d i, signal.event d i = if name = d ∧ item = i then some e else none)
    (unsaid : ∀ d, signal.presence d = none) (recordable : Recordable t [signal]) :
    ∃ t', rrSetUpdated t name item (e = .created) (e = .deleted) = some t' ∧
      Received t [signal] t' := by
  have here := recordable name item
  simp only [events_cons, said, and_self, if_true, events_nil, Option.toList_some,
    List.append_nil, List.foldlM_cons, List.foldlM_nil] at here
  obtain ⟨m, recorded⟩ := Option.isSome_iff_exists.mp here
  simp only [bind_pure] at recorded
  obtain ⟨q, updated, marked, others⟩ := update_of_record (p := pending t name) recorded
  refine ⟨t.store name q, by rw [rrSetUpdated_eq aligned, updated]; rfl,
    aligned_store aligned name q, fun d i => ?_, fun d => by simp [unsaid]⟩
  by_cases domain : d = name
  · subst domain
    have stored : mark (t.store d q) d i = q.mark i := by simp [mark, pending_store]
    by_cases same : i = item
    · subst same
      simp [said, stored, marked, recorded]
    · have other : ¬ item = i := Ne.symm same
      have kept : mark t d i = q.mark i := (others i same).symm
      simp [said, other, stored, kept]
  · have other : ¬ name = d := Ne.symm domain
    simp [said, other, mark, pending_store, domain]

private theorem domainFlip_domainUpdated (t : PDNSChangeTracker) (name : Text) (came : Bool) :
    ∃ added deleted, domainUpdated t name came (!came)
        = some { t with domainAdditions := added, domainDeletions := deleted } ∧
      (⟨name ∈ added, name ∈ deleted⟩ : Flip) = (domainFlip t name).record came ∧
      ∀ d, d ≠ name → (⟨d ∈ added, d ∈ deleted⟩ : Flip) = domainFlip t d := by
  cases came with
  | true =>
    by_cases gone : name ∈ t.domainDeletions
    · exact ⟨t.domainAdditions, t.domainDeletions.erase name, by simp [domainUpdated, gone],
        by simp [domainFlip, Flip.record, gone], fun d other => by simp [domainFlip, other]⟩
    · exact ⟨insert name t.domainAdditions, t.domainDeletions, by simp [domainUpdated, gone],
        by simp [domainFlip, Flip.record, gone], fun d other => by simp [domainFlip, other]⟩
  | false =>
    by_cases added : name ∈ t.domainAdditions
    · exact ⟨t.domainAdditions.erase name, t.domainDeletions, by simp [domainUpdated, added],
        by simp [domainFlip, Flip.record, added], fun d other => by simp [domainFlip, other]⟩
    · exact ⟨t.domainAdditions, insert name t.domainDeletions, by simp [domainUpdated, added],
        by simp [domainFlip, Flip.record, added], fun d other => by simp [domainFlip, other]⟩

private theorem received_domainUpdated {t : PDNSChangeTracker} (aligned : Aligned t)
    (name : Text) (signal : Signal) (came : Bool)
    (unsaid : ∀ d i, signal.event d i = none)
    (said : ∀ d, signal.presence d = if name = d then some came else none) :
    ∃ t', domainUpdated t name came (!came) = some t' ∧ Received t [signal] t' := by
  obtain ⟨added, deleted, updated, here, others⟩ := domainFlip_domainUpdated t name came
  refine ⟨_, updated, aligned, fun d i => by simp [unsaid, mark, pending], fun d => ?_⟩
  by_cases same : name = d
  · subst same
    simpa [said, domainFlip] using here.symm
  · simpa [said, same, domainFlip] using (others d (Ne.symm same)).symm

private theorem received_of_recordable {t : PDNSChangeTracker} (aligned : Aligned t)
    (signal : Signal)
    (recordable : Recordable t [signal]) :
    ∃ t', receive t signal = some t' ∧ Received t [signal] t' := by
  cases signal with
  | rrPostSave name item created =>
    exact received_rrSetUpdated (e := .modified) aligned (fun _ _ => rfl) (fun _ => rfl) recordable
  | rrPostDelete name item =>
    exact received_rrSetUpdated (e := .modified) aligned (fun _ _ => rfl) (fun _ => rfl) recordable
  | rrsetPostSave name item created =>
    cases created with
    | true =>
      exact received_rrSetUpdated (e := .created) aligned (fun _ _ => rfl) (fun _ => rfl)
        recordable
    | false =>
      exact received_rrSetUpdated (e := .modified) aligned (fun _ _ => rfl) (fun _ => rfl)
        recordable
  | rrsetPostDelete name item =>
    exact received_rrSetUpdated (e := .deleted) aligned (fun _ _ => rfl) (fun _ => rfl) recordable
  | domainPostSave name created =>
    cases created with
    | true =>
      exact received_domainUpdated aligned name (.domainPostSave name true) true
        (fun _ _ => rfl) (fun d => by simp [Signal.presence])
    | false =>
      exact ⟨t, rfl, aligned, fun _ _ => rfl, fun _ => by simp [Signal.presence]⟩
  | domainPostDelete name =>
    exact received_domainUpdated aligned name (.domainPostDelete name) false
      (fun _ _ => rfl) (fun _ => rfl)

private theorem keys_of_receive {t t' : PDNSChangeTracker} (aligned : Aligned t) {signal : Signal}
    (received : receive t signal = some t') {name : Text}
    (key : (t'.rrSetAdditions.lookup name).isSome) :
    (t.rrSetAdditions.lookup name).isSome ∨ signal.domainName = name := by
  have updated {d : Text} {item : Item} {created deleted : Bool}
      (done : rrSetUpdated t d item created deleted = some t') :
      (t.rrSetAdditions.lookup name).isSome ∨ d = name := by
    rw [rrSetUpdated_eq aligned, Option.map_eq_some_iff] at done
    obtain ⟨p, -, rfl⟩ := done
    by_cases same : d = name
    · exact Or.inr same
    · left
      simpa [PDNSChangeTracker.store, Finmap.lookup_insert_of_ne _ (Ne.symm same)] using key
  have unchanged (d : Text) (created deleted : Bool)
      (done : domainUpdated t d created deleted = some t') :
      (t.rrSetAdditions.lookup name).isSome := by
    have same : t'.rrSetAdditions = t.rrSetAdditions := by
      cases created <;> cases deleted <;> simp only [domainUpdated, reduceCtorEq] at done
      · rw [Option.some.inj done]
      · split at done <;> rw [← Option.some.inj done]
      · split at done <;> rw [← Option.some.inj done]
    exact same ▸ key
  cases signal with
  | rrPostSave d item created => exact updated received
  | rrPostDelete d item => exact updated received
  | rrsetPostSave d item created => exact updated received
  | rrsetPostDelete d item => exact updated received
  | domainPostSave d created =>
    exact Or.inl (unchanged d created false received)
  | domainPostDelete d =>
    exact Or.inl (unchanged d false true received)

theorem receivedAll_of_recordable (signals : List Signal) :
    ∀ {t : PDNSChangeTracker}, Aligned t → Recordable t signals →
      ∃ t', receiveAll t signals = some t' ∧ Received t signals t' ∧
        ∀ name, (t'.rrSetAdditions.lookup name).isSome →
          (t.rrSetAdditions.lookup name).isSome ∨ ∃ signal ∈ signals, signal.domainName = name := by
  induction signals with
  | nil =>
    exact fun {t} aligned _ =>
      ⟨t, rfl, ⟨aligned, fun _ _ => rfl, fun _ => rfl⟩, fun _ key => Or.inl key⟩
  | cons signal rest ih =>
    intro t aligned recordable
    have first : Recordable t [signal] := fun d i => by
      have whole := recordable d i
      rw [events_cons, List.foldlM_append] at whole
      cases head : (signal.event d i).toList.foldlM Mark.record (mark t d i) with
      | none => simp [head] at whole
      | some m => simp [head]
    obtain ⟨next, received, step⟩ := received_of_recordable aligned signal first
    have marks (d : Text) (i : Item) :
        (signal.event d i).toList.foldlM Mark.record (mark t d i) = some (mark next d i) := by
      simpa using step.marks d i
    have others : Recordable next rest := fun d i => by
      have whole := recordable d i
      rw [events_cons, List.foldlM_append, marks d i] at whole
      exact whole
    obtain ⟨last, receivedRest, run, keys⟩ := ih step.aligned others
    refine ⟨last, ?_, ⟨run.aligned, fun d i => ?_, fun d => ?_⟩, fun name key => ?_⟩
    · simpa [receiveAll, received] using receivedRest
    · rw [events_cons, List.foldlM_append, marks d i]
      exact run.marks d i
    · have flips := step.flips d
      rw [presences_cons, presences_nil, List.append_nil] at flips
      rw [presences_cons, List.foldl_append, flips, run.flips d]
    · rcases keys name key with earlier | ⟨later, member, about⟩
      · rcases keys_of_receive aligned received earlier with before | about
        · exact Or.inl before
        · exact Or.inr ⟨signal, List.mem_cons_self .., about⟩
      · exact Or.inr ⟨later, List.mem_cons_of_mem _ member, about⟩

/-- What the tracker knows at the end of a valid body of writes. -/
structure Tracked (unicode : Unicode) (start db : Database) (signals : List Signal)
    (t : PDNSChangeTracker) : Prop where
  aligned : Aligned t
  agrees (d : Text) (i : Item) :
    Agrees RRset.blank (value start d i) (events d i signals) (value db d i) (mark t d i)
  flips (d : Text) : domainFlip t d = Flip.between (start.lookup d).isSome (db.lookup d).isSome
  named (d : Text) (key : (t.rrSetAdditions.lookup d).isSome) :
    validateDomainName unicode d = true

/-- No handler fails during a valid body of writes: neither an assertion nor a lookup. -/
theorem tracked_of_told {unicode : Unicode} {start db : Database} {signals : List Signal}
    (told : Told unicode start signals db) :
    ∃ t, receiveAll enter signals = some t ∧ Tracked unicode start db signals t := by
  have recorded (d : Text) (i : Item) := recordAll_of_life (told.life d i)
  have clean (d : Text) (i : Item) : mark enter d i = Mark.clean := rfl
  obtain ⟨t, received, run, keys⟩ := receivedAll_of_recordable signals aligned_enter fun d i => by
    obtain ⟨m, marked, -⟩ := recorded d i
    rw [clean]
    exact Option.isSome_iff_exists.mpr ⟨m, marked⟩
  refine ⟨t, received, run.aligned, fun d i => ?_, fun d => ?_, fun d key => ?_⟩
  · obtain ⟨m, marked, agrees⟩ := recorded d i
    have same := run.marks d i
    rw [clean, ← Mark.recordAll, marked] at same
    rwa [Option.some.inj same] at agrees
  · rw [← run.flips d, ← told.presence d]
    rfl
  · obtain ⟨signal, member, rfl⟩ := (keys d key).resolve_left (by simp [enter])
    exact told.spoken signal member

end DesecStack.Changes.Tracker
