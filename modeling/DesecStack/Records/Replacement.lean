/- module: DesecStack/Records/Replacement
   source: api/desecapi/models/records.py 140-247, api/desecapi/pdns_change_tracker.py 379-407
   digest: The records of an RRset are replaced row by row, with prefetched rows and a tracker. -/

import DesecStack.Changes.Tracker
import DesecStack.Records.Canonical
import DesecStack.Records.Values

set_option autoImplicit false
set_option relaxedAutoImplicit false

namespace DesecStack.Records.Replacement

open Library.PyText
open Changes.Models (Item Signal cleanRRset value)
open Changes.Tracker
open Save (Env SaveError Session)
open Canonical (canonicalForms mem_canonicalForms forms_of_cleanRecords)

/-! ### Rows -/

/-- A row of the table of RRs. -/
structure RR where
  id : Nat
  rrset : Nat
  content : Text
  deriving DecidableEq

def rowsOf (pk : Nat) (rrs : Finset RR) : Finset RR := rrs.filter fun rr => rr.rrset = pk

def contents (rows : Finset RR) : Finset Text := rows.image RR.content

/-- An RRset of the domain, which passes the checks of its model, with the rows that a query
may have prefetched for it. -/
structure RRset (env : Env) where
  pk : Nat
  item : Item
  ttl : Nat
  clean : cleanRRset env.unicode item ttl = true
  prefetched : Option (Finset RR)

/-- The table of RRs with its sequence, and the change tracker if one is active. -/
structure State where
  rrs : Finset RR
  nextId : Nat
  tracker : Option PDNSChangeTracker

/-- An error of `clean_records`, any other exception from within it, a violated constraint, an
RRset that fails its checks, or an exception of the tracker. -/
inductive Raised where
  | invalid (error : SaveError)
  | escaped
  | integrity
  | validation
  | tracker
  deriving DecidableEq

/-- Effects on the state stay when an exception is raised. -/
abbrev Effect := ExceptT Raised (StateM State)

def send (signal : Signal) : Effect Unit := fun state =>
  match state.tracker with
  | none => (.ok (), state)
  | some t =>
      match receive t signal with
      | none => (.error .tracker, state)
      | some t' => (.ok (), { state with tracker := some t' })

def sendTimes (signal : Signal) : Nat → Effect Unit
  | 0 => pure ()
  | n + 1 => do
      send signal
      sendTimes signal n

section SaveRecords

variable (escapes : (content type : Text) → Bool) {env : Env}

variable (env) in
/-- `clean_records`; exceptions on a record other than a `ValueError` end the loop. -/
def cleanRecords (item : Item) (records : List Text) : Except Raised (Finset Text) :=
  if records.any fun record => escapes record item.1 then .error .escaped
  else (Save.cleanRecords env item records).mapError .invalid

/-- `self.records.exclude(content__in=new)`: a new query, whatever is prefetched. -/
def staleRows (self : RRset env) (new : Finset Text) (state : State) : Finset RR :=
  (rowsOf self.pk state.rrs).filter fun rr => rr.content ∉ new

/-- The deletion of these rows, whose signals all say the same. -/
def deleteExcept (self : RRset env) (new : Finset Text) : Effect Unit := fun state =>
  sendTimes (.rrPostDelete env.name self.item) (staleRows self new state).card
    { state with rrs := state.rrs \ staleRows self new state }

/-- `self.records.all()`: the prefetched rows if there are any. -/
def recordsAll (self : RRset env) : Effect (Finset RR) := fun state =>
  (.ok (self.prefetched.getD (rowsOf self.pk state.rrs)), state)

/-- `RRset.save` of an RRset that is stored. -/
def save (self : RRset env) : Effect Unit :=
  if cleanRRset env.unicode self.item self.ttl = true then
    send (.rrsetPostSave env.name self.item false)
  else throw .validation

/-- The rows for new contents, in the order in which the set of them is met. -/
def newRows (self : RRset env) (nextId : Nat) (added : Finset Text) : Finset RR :=
  (((env.contents.visit added).zipIdx nextId).map fun new => ⟨new.2, self.pk, new.1⟩).toFinset

/-- `RRManager.bulk_create`; the contents of an RRset are unique. -/
def bulkCreate (self : RRset env) (added : Finset Text) : Effect Unit := fun state =>
  if added = ∅ then (.ok (), state)
  else if Disjoint added (contents (rowsOf self.pk state.rrs)) then
    save self { state with
      rrs := state.rrs ∪ newRows self state.nextId added
      nextId := state.nextId + added.card }
  else (.error .integrity, state)

/-- `save_records` -/
def saveRecords (self : RRset env) (records : List Text) : Effect Unit := do
  let new ← ExceptT.mk (pure (cleanRecords escapes env self.item records))
  deleteExcept self new
  let unchanged ← recordsAll self
  bulkCreate self (new \ contents unchanged)

end SaveRecords

/-! ### The tracker -/

section Tracker

variable {name : Text} {item : Item} {t : PDNSChangeTracker}

/-- A tracker that has no deletion of an RRset recorded, as it is stored. -/
structure Listening (name : Text) (item : Item) (t : PDNSChangeTracker) : Prop where
  aligned : Aligned t
  undeleted : item ∉ (pending t name).deletions

/-- A tracker that has been active during valid writes has no deletion of a stored RRset. -/
theorem listening_of_tracked {unicode : Unicode} {start db : Changes.Models.Database}
    {signals : List Signal} (tracked : Tracked unicode start db signals t)
    (stored : (value db name item).isSome) : Listening name item t := by
  refine ⟨tracked.aligned, fun deleted => ?_⟩
  have gone : (mark t name item).deleted = true := by simpa [mark, Pending.mark] using deleted
  have absent := ((tracked.agrees name item).deleted_absent gone).1
  simp [absent] at stored

def recordModification (t : PDNSChangeTracker) (name : Text) (item : Item) : PDNSChangeTracker :=
  t.store name { pending t name with
    modifications := insert item (pending t name).modifications }

private theorem pending_recordModification (t : PDNSChangeTracker) (name d : Text) (item : Item) :
    pending (recordModification t name item) d =
      if d = name then { pending t name with
        modifications := insert item (pending t name).modifications }
      else pending t d :=
  pending_store t name d _

private theorem recordModification_idem (t : PDNSChangeTracker) (name : Text) (item : Item) :
    recordModification (recordModification t name item) name item =
      recordModification t name item := by
  rw [recordModification, pending_recordModification, if_pos rfl, recordModification, store_store]
  simp only [Finset.insert_idem]

private theorem Listening.recordModification {other : Item} (listening : Listening name item t) :
    Listening name item (recordModification t name other) := by
  refine ⟨aligned_store listening.aligned _ _, ?_⟩
  rw [pending_recordModification, if_pos rfl]
  exact listening.undeleted

/-- The signals of a replacement make the tracker record a modification. -/
inductive Modifies (name : Text) (item : Item) : Signal → Prop where
  | rrPostDelete : Modifies name item (.rrPostDelete name item)
  | rrsetPostSave : Modifies name item (.rrsetPostSave name item false)

private theorem receive_of_modifies {signal : Signal} (modifies : Modifies name item signal)
    (listening : Listening name item t) :
    receive t signal = some (recordModification t name item) := by
  have updated : rrSetUpdated t name item false false = some (recordModification t name item) := by
    rw [rrSetUpdated_eq listening.aligned, Pending.update, if_neg listening.undeleted]
    rfl
  cases modifies with
  | rrPostDelete => exact updated
  | rrsetPostSave => exact updated

end Tracker

/-! ### Effects -/

private theorem run_ok {α β : Type} {x : Effect α} {f : α → Effect β} {state state' : State} {a : α}
    (done : x state = (.ok a, state')) : (x >>= f) state = f a state' := by
  show ExceptT.bindCont f (x state).1 (x state).2 = _
  rw [done]
  rfl

private theorem run_error {α β : Type} {x : Effect α} {f : α → Effect β} {state state' : State}
    {raised : Raised} (failed : x state = (.error raised, state')) :
    (x >>= f) state = (.error raised, state') := by
  show ExceptT.bindCont f (x state).1 (x state).2 = _
  rw [failed]
  rfl

/-- The state in which the modification of an RRset is recorded, if a tracker is active. -/
def State.record (state : State) (name : Text) (item : Item) : State :=
  { state with tracker := state.tracker.map fun t => recordModification t name item }

/-- Rows have ids from the sequence, and contents that are unique within their RRset; the
tracker has recorded no deletion of the RRset. -/
structure Sound {env : Env} (target : RRset env) (state : State) : Prop where
  below (rr : RR) (stored : rr ∈ state.rrs) : rr.id < state.nextId
  ids (a b : RR) (first : a ∈ state.rrs) (second : b ∈ state.rrs) (same : a.id = b.id) : a = b
  unique (a b : RR) (first : a ∈ state.rrs) (second : b ∈ state.rrs) (one : a.rrset = b.rrset)
    (same : a.content = b.content) : a = b
  listening (t : PDNSChangeTracker) (active : state.tracker = some t) :
    Listening env.name target.item t

section Effects

variable {env : Env} {self : RRset env} {state : State}

private theorem send_of_modifies {signal : Signal} (modifies : Modifies env.name self.item signal)
    (listening : ∀ t, state.tracker = some t → Listening env.name self.item t) :
    send signal state = (.ok (), state.record env.name self.item) := by
  unfold send State.record
  cases active : state.tracker with
  | none =>
    show (Except.ok (), state) = _
    rw [Option.map_none, ← active]
  | some t => simp only [receive_of_modifies modifies (listening t active), Option.map_some]

private theorem record_record (state : State) (name : Text) (item : Item) :
    (state.record name item).record name item = state.record name item := by
  simp only [State.record, Option.map_map]
  congr 2
  funext t
  exact recordModification_idem t name item

private theorem listening_record {item other : Item}
    (listening : ∀ t, state.tracker = some t → Listening env.name item t)
    (t : PDNSChangeTracker) (active : (state.record env.name other).tracker = some t) :
    Listening env.name item t := by
  obtain ⟨before, was, rfl⟩ := Option.map_eq_some_iff.mp active
  exact (listening before was).recordModification

private theorem sendTimes_of_modifies {signal : Signal}
    (modifies : Modifies env.name self.item signal)
    (n : Nat) : ∀ {state : State},
      (∀ t, state.tracker = some t → Listening env.name self.item t) →
      sendTimes signal n state =
        (.ok (), if n = 0 then state else state.record env.name self.item) := by
  induction n with
  | zero =>
    intro state _
    rfl
  | succ n ih =>
    intro state listening
    rw [sendTimes, run_ok (send_of_modifies modifies listening), ih (listening_record listening),
      if_neg n.succ_ne_zero]
    split
    · rfl
    · rw [record_record]

/-- The state after the deletion. -/
def deleted (self : RRset env) (new : Finset Text) (state : State) : State :=
  let rest := { state with rrs := state.rrs \ staleRows self new state }
  if staleRows self new state = ∅ then rest else rest.record env.name self.item

private theorem deleteExcept_eq (sound : Sound self state) (new : Finset Text) :
    deleteExcept self new state = (.ok (), deleted self new state) := by
  have listening : ∀ t, ({ state with rrs := state.rrs \ staleRows self new state } : State).tracker
      = some t → Listening env.name self.item t := sound.listening
  rw [deleteExcept, sendTimes_of_modifies .rrPostDelete _ listening, deleted]
  by_cases none : staleRows self new state = ∅
  · rw [if_pos none, if_pos (Finset.card_eq_zero.mpr none)]
  · rw [if_neg none, if_neg fun zero => none (Finset.card_eq_zero.mp zero)]

private theorem save_eq (listening : ∀ t, state.tracker = some t → Listening env.name self.item t) :
    save self state = (.ok (), state.record env.name self.item) := by
  rw [save, if_pos self.clean]
  exact send_of_modifies .rrsetPostSave listening

/-- The state after new rows are inserted. -/
def inserted (self : RRset env) (added : Finset Text) (state : State) : State :=
  if added = ∅ then state
  else { state with
    rrs := state.rrs ∪ newRows self state.nextId added
    nextId := state.nextId + added.card }.record env.name self.item

private theorem bulkCreate_eq {added : Finset Text}
    (listening : ∀ t, state.tracker = some t → Listening env.name self.item t)
    (apart : Disjoint added (contents (rowsOf self.pk state.rrs))) :
    bulkCreate self added state = (.ok (), inserted self added state) := by
  unfold bulkCreate inserted
  split
  · rfl
  · exact save_eq listening

private theorem bulkCreate_clash {added : Finset Text}
    (clash : ¬ Disjoint added (contents (rowsOf self.pk state.rrs))) :
    bulkCreate self added state = (.error .integrity, state) := by
  have several : added ≠ ∅ := fun none => clash (none ▸ Finset.disjoint_empty_left _)
  rw [bulkCreate, if_neg several, if_neg clash]

end Effects

/-! ### Replacement -/

section Replacement

variable {escapes : (content type : Text) → Bool} {env : Env} {self : RRset env}
  {records : List Text} {state : State}

private theorem forms_of_clean {item : Item} {new : Finset Text}
    (clean : cleanRecords escapes env item records = .ok new) :
    new = canonicalForms env item records := by
  unfold cleanRecords at clean
  split at clean
  · exact absurd clean (by simp)
  · cases saved : Save.cleanRecords env item records with
    | error error => simp [saved, Except.mapError] at clean
    | ok new' =>
      rw [saved] at clean
      obtain rfl := Except.ok.inj clean
      exact forms_of_cleanRecords saved

private theorem saveRecords_of_error {raised : Raised}
    (failed : cleanRecords escapes env self.item records = .error raised) :
    saveRecords escapes self records state = (.error raised, state) := by
  apply run_error
  rw [failed]
  rfl

private theorem saveRecords_of_clean {new : Finset Text} (sound : Sound self state)
    (clean : cleanRecords escapes env self.item records = .ok new) :
    saveRecords escapes self records state =
      bulkCreate self
        (new \ contents (self.prefetched.getD (rowsOf self.pk (deleted self new state).rrs)))
        (deleted self new state) := by
  have cleaned : (ExceptT.mk (pure (cleanRecords escapes env self.item records)) :
      Effect (Finset Text)) state = (.ok new, state) := by
    rw [clean]
    rfl
  rw [saveRecords, run_ok cleaned, run_ok (deleteExcept_eq sound new)]
  rfl

private theorem mem_rowsOf {pk : Nat} {rrs : Finset RR} {rr : RR} :
    rr ∈ rowsOf pk rrs ↔ rr ∈ rrs ∧ rr.rrset = pk :=
  Finset.mem_filter

private theorem mem_contents {rows : Finset RR} {content : Text} :
    content ∈ contents rows ↔ ∃ rr ∈ rows, rr.content = content :=
  Finset.mem_image

/-- What is stored for the RRset. -/
def stored (self : RRset env) (state : State) : Finset Text := contents (rowsOf self.pk state.rrs)

private theorem mem_stored {content : Text} : content ∈ stored self state ↔
    ∃ rr ∈ state.rrs, rr.rrset = self.pk ∧ rr.content = content := by
  rw [stored, mem_contents]
  apply exists_congr
  intro rr
  rw [mem_rowsOf, and_assoc]

private theorem mem_staleRows {new : Finset Text} {rr : RR} : rr ∈ staleRows self new state ↔
    (rr ∈ state.rrs ∧ rr.rrset = self.pk) ∧ rr.content ∉ new := by
  rw [staleRows, Finset.mem_filter, mem_rowsOf]

@[simp] theorem deleted_rrs (self : RRset env) (new : Finset Text) (state : State) :
    (deleted self new state).rrs = state.rrs \ staleRows self new state := by
  unfold deleted
  split <;> rfl

@[simp] theorem deleted_nextId (self : RRset env) (new : Finset Text) (state : State) :
    (deleted self new state).nextId = state.nextId := by
  unfold deleted
  split <;> rfl

private theorem stored_deleted (new : Finset Text) :
    stored self (deleted self new state) = stored self state ∩ new := by
  ext content
  rw [Finset.mem_inter, mem_stored, mem_stored, deleted_rrs]
  constructor
  · rintro ⟨rr, member, own, rfl⟩
    obtain ⟨there, spared⟩ := Finset.mem_sdiff.mp member
    refine ⟨⟨rr, there, own, rfl⟩, ?_⟩
    by_contra outside
    exact spared (mem_staleRows.mpr ⟨⟨there, own⟩, outside⟩)
  · rintro ⟨⟨rr, there, own, rfl⟩, inside⟩
    refine ⟨rr, Finset.mem_sdiff.mpr ⟨there, fun stale => ?_⟩, own, rfl⟩
    exact (mem_staleRows.mp stale).2 inside

private theorem staleRows_eq_empty_iff {new : Finset Text} :
    staleRows self new state = ∅ ↔ stored self state ⊆ new := by
  rw [Finset.eq_empty_iff_forall_notMem]
  constructor
  · intro none content there
    obtain ⟨rr, member, own, rfl⟩ := mem_stored.mp there
    by_contra outside
    exact none rr (mem_staleRows.mpr ⟨⟨member, own⟩, outside⟩)
  · intro sub rr stale
    obtain ⟨⟨member, own⟩, outside⟩ := mem_staleRows.mp stale
    exact outside (sub (mem_stored.mpr ⟨rr, member, own, rfl⟩))

section NewRows

variable {next : Nat} {added : Finset Text}

private theorem mem_newRows {rr : RR} : rr ∈ newRows self next added ↔ rr.rrset = self.pk ∧
    next ≤ rr.id ∧ (env.contents.visit added)[rr.id - next]? = some rr.content := by
  rw [newRows, List.mem_toFinset, List.mem_map]
  constructor
  · rintro ⟨⟨content, id⟩, member, rfl⟩
    rw [List.mk_mem_zipIdx_iff_le_and_getElem?_sub] at member
    exact ⟨rfl, member.1, member.2⟩
  · rintro ⟨own, lower, found⟩
    refine ⟨(rr.content, rr.id), ?_, by rw [← own]⟩
    rw [List.mk_mem_zipIdx_iff_le_and_getElem?_sub]
    exact ⟨lower, found⟩

private theorem length_visit (added : Finset Text) :
    (env.contents.visit added).length = added.card := by
  rw [← List.toFinset_card_of_nodup (env.contents.nodup added)]
  congr 1
  ext content
  rw [List.mem_toFinset, env.contents.mem_visit]

private theorem newRows_content {rr : RR} (member : rr ∈ newRows self next added) :
    rr.content ∈ added := by
  have inside := List.mem_of_getElem? (mem_newRows.mp member).2.2
  rwa [env.contents.mem_visit] at inside

private theorem newRows_id {rr : RR} (member : rr ∈ newRows self next added) :
    next ≤ rr.id ∧ rr.id < next + added.card := by
  obtain ⟨-, lower, found⟩ := mem_newRows.mp member
  obtain ⟨bound, -⟩ := List.getElem?_eq_some_iff.mp found
  rw [length_visit] at bound
  omega

private theorem exists_newRow {content : Text} (inside : content ∈ added) :
    ∃ rr ∈ newRows self next added, rr.content = content := by
  rw [← env.contents.mem_visit] at inside
  obtain ⟨i, found⟩ := List.getElem?_of_mem inside
  refine ⟨⟨next + i, self.pk, content⟩, mem_newRows.mpr ⟨rfl, Nat.le_add_right .., ?_⟩, rfl⟩
  simpa using found

private theorem newRows_unique {a b : RR} (first : a ∈ newRows self next added)
    (second : b ∈ newRows self next added) : a.content = b.content ↔ a = b := by
  obtain ⟨ownA, lowerA, foundA⟩ := mem_newRows.mp first
  obtain ⟨ownB, lowerB, foundB⟩ := mem_newRows.mp second
  constructor
  · intro same
    obtain ⟨boundA, -⟩ := List.getElem?_eq_some_iff.mp foundA
    have index := (List.getElem?_inj boundA (env.contents.nodup added)).mp
      (foundA.trans (same ▸ foundB.symm))
    cases a
    cases b
    simp only [RR.mk.injEq] at *
    exact ⟨by omega, ownA.trans ownB.symm, same⟩
  · intro same
    rw [same]

private theorem newRows_ids {a b : RR} (first : a ∈ newRows self next added)
    (second : b ∈ newRows self next added) (same : a.id = b.id) : a = b := by
  rw [← newRows_unique first second]
  obtain ⟨-, -, foundA⟩ := mem_newRows.mp first
  obtain ⟨-, -, foundB⟩ := mem_newRows.mp second
  rw [same] at foundA
  exact Option.some.inj (foundA.symm.trans foundB)

end NewRows

/-! ### Exactness -/

/-- The rows after a replacement: exactly one for each content that is asked for, in its old
row where there was one, and no change elsewhere; a modification is recorded exactly if the set
of contents has changed. -/
structure Replaced (target : RRset env) (new : Finset Text) (before after : State) : Prop where
  exact : stored target after = new
  sound : Sound target after
  kept (rr : RR) (member : rr ∈ before.rrs) (own : rr.rrset = target.pk)
    (still : rr.content ∈ new) :
    rr ∈ after.rrs
  others (rr : RR) (foreign : rr.rrset ≠ target.pk) : rr ∈ after.rrs ↔ rr ∈ before.rrs
  recorded : after.tracker =
    if stored target before = new then before.tracker
    else before.tracker.map fun t => recordModification t env.name target.item

/-- If the records are not clean nothing is changed, and if they are they replace the old. -/
def ReplacesExactly (escapes : (content type : Text) → Bool) (self : RRset env)
    (records : List Text) (state : State) : Prop :=
  (∀ raised, cleanRecords escapes env self.item records = .error raised →
    saveRecords escapes self records state = (.error raised, state)) ∧
  ∀ new, cleanRecords escapes env self.item records = .ok new →
    ∃ after, saveRecords escapes self records state = (.ok (), after) ∧
      Replaced self (canonicalForms env self.item records) state after

/-- What is prefetched says of the contents that are asked for whether they are stored. -/
def Current (self : RRset env) (new : Finset Text) (state : State) : Prop :=
  ∀ cached, self.prefetched = some cached →
    ∀ content ∈ new, content ∈ contents cached ↔ content ∈ stored self state

/-- What is taken to be missing after the deletion. -/
def missing (self : RRset env) (new : Finset Text) (state : State) : Finset Text :=
  new \ contents (self.prefetched.getD (rowsOf self.pk (deleted self new state).rrs))

private theorem missing_of_current {new : Finset Text} (current : Current self new state) :
    missing self new state = new \ stored self state := by
  rw [missing]
  cases cache : self.prefetched with
  | none =>
    have left : stored self (deleted self new state) = stored self state ∩ new := stored_deleted new
    rw [stored] at left
    rw [Option.getD_none, left, Finset.sdiff_inter_self_right]
  | some cached =>
    ext content
    rw [Option.getD_some, Finset.mem_sdiff, Finset.mem_sdiff]
    apply and_congr_right
    intro inside
    rw [current cached cache content inside]

private theorem sound_deleted (sound : Sound self state) (new : Finset Text) :
    Sound self (deleted self new state) := by
  have fewer {rr : RR} (member : rr ∈ (deleted self new state).rrs) : rr ∈ state.rrs := by
    rw [deleted_rrs] at member
    exact (Finset.mem_sdiff.mp member).1
  refine ⟨fun rr member => ?_, fun a b first second => sound.ids a b (fewer first) (fewer second),
    fun a b first second => sound.unique a b (fewer first) (fewer second), ?_⟩
  · rw [deleted_nextId]
    exact sound.below rr (fewer member)
  · unfold deleted
    dsimp only
    split
    · exact sound.listening
    · exact listening_record sound.listening

private theorem inserted_rrs (self : RRset env) (added : Finset Text) (state : State) :
    (inserted self added state).rrs = state.rrs ∪ newRows self state.nextId added := by
  unfold inserted
  split
  · next none =>
    subst none
    have nothing : newRows self state.nextId ∅ = ∅ := by
      rw [newRows, Library.SetOrder.visit_empty]
      rfl
    rw [nothing, Finset.union_empty]
  · rfl

private theorem inserted_nextId (self : RRset env) (added : Finset Text) (state : State) :
    (inserted self added state).nextId = state.nextId + added.card := by
  unfold inserted
  split
  · next none => rw [none, Finset.card_empty, Nat.add_zero]
  · rfl

private theorem sound_inserted (sound : Sound self state) {added : Finset Text}
    (apart : Disjoint added (stored self state)) : Sound self (inserted self added state) := by
  have old {rr : RR} (member : rr ∈ state.rrs) : rr.id < state.nextId := sound.below rr member
  have clash {a b : RR} (first : a ∈ state.rrs) (second : b ∈ newRows self state.nextId added)
      (one : a.rrset = b.rrset) (same : a.content = b.content) : False := by
    apply Finset.disjoint_left.mp apart (newRows_content second)
    rw [mem_stored]
    exact ⟨a, first, one.trans (mem_newRows.mp second).1, same⟩
  refine ⟨fun rr member => ?_, fun a b first second same => ?_, fun a b first second one same => ?_,
    ?_⟩
  · rw [inserted_rrs, Finset.mem_union] at member
    rw [inserted_nextId]
    rcases member with member | member
    · exact Nat.lt_add_right _ (old member)
    · exact (newRows_id member).2
  · rw [inserted_rrs, Finset.mem_union] at first second
    rcases first with first | first <;> rcases second with second | second
    · exact sound.ids a b first second same
    · have lower := (newRows_id second).1
      have upper := old first
      omega
    · have lower := (newRows_id first).1
      have upper := old second
      omega
    · exact newRows_ids first second same
  · rw [inserted_rrs, Finset.mem_union] at first second
    rcases first with first | first <;> rcases second with second | second
    · exact sound.unique a b first second one same
    · exact (clash first second one same).elim
    · exact (clash second first one.symm same.symm).elim
    · exact (newRows_unique first second).mp same
  · unfold inserted
    split
    · exact sound.listening
    · exact listening_record sound.listening

private theorem stored_inserted (added : Finset Text) :
    stored self (inserted self added state) = stored self state ∪ added := by
  ext content
  rw [Finset.mem_union, mem_stored, mem_stored, inserted_rrs]
  constructor
  · rintro ⟨rr, member, own, rfl⟩
    rcases Finset.mem_union.mp member with member | member
    · exact Or.inl ⟨rr, member, own, rfl⟩
    · exact Or.inr (newRows_content member)
  · rintro (⟨rr, member, own, rfl⟩ | inside)
    · exact ⟨rr, Finset.mem_union_left _ member, own, rfl⟩
    · obtain ⟨rr, member, rfl⟩ : ∃ rr ∈ newRows self state.nextId added, rr.content = content :=
        exists_newRow inside
      exact ⟨rr, Finset.mem_union_right _ member, (mem_newRows.mp member).1, rfl⟩

private theorem tracker_after (new added : Finset Text) :
    (inserted self added (deleted self new state)).tracker =
      if staleRows self new state = ∅ ∧ added = ∅ then state.tracker
      else state.tracker.map fun t => recordModification t env.name self.item := by
  have twice (option : Option PDNSChangeTracker) :
      (option.map fun t => recordModification t env.name self.item).map
          (fun t => recordModification t env.name self.item) =
        option.map fun t => recordModification t env.name self.item := by
    rw [Option.map_map]
    congr 1
    funext t
    exact recordModification_idem t env.name self.item
  unfold inserted deleted
  by_cases none : staleRows self new state = ∅ <;> by_cases nothing : added = ∅ <;>
    simp [none, nothing, State.record, twice]

private theorem replaced_of_current (sound : Sound self state) {new : Finset Text}
    (current : Current self new state) :
    bulkCreate self (missing self new state) (deleted self new state) =
        (.ok (), inserted self (missing self new state) (deleted self new state)) ∧
      Replaced self new state (inserted self (missing self new state)
        (deleted self new state)) := by
  have added := missing_of_current current
  have apart : Disjoint (missing self new state) (stored self (deleted self new state)) := by
    rw [added, stored_deleted]
    exact Finset.disjoint_of_subset_right Finset.inter_subset_left Finset.sdiff_disjoint
  refine ⟨bulkCreate_eq (sound_deleted sound new).listening apart, ?_,
    sound_inserted (sound_deleted sound new) apart, fun rr member own still => ?_,
    fun rr foreign => ?_, ?_⟩
  · rw [stored_inserted, stored_deleted, added]
    ext content
    simp only [Finset.mem_union, Finset.mem_inter, Finset.mem_sdiff]
    tauto
  · rw [inserted_rrs, deleted_rrs]
    refine Finset.mem_union_left _ (Finset.mem_sdiff.mpr ⟨member, fun stale => ?_⟩)
    exact (mem_staleRows.mp stale).2 still
  · rw [inserted_rrs, deleted_rrs, Finset.mem_union, Finset.mem_sdiff]
    constructor
    · rintro (⟨member, -⟩ | added)
      · exact member
      · exact absurd (mem_newRows.mp added).1 foreign
    · intro member
      exact Or.inl ⟨member, fun stale => foreign (mem_staleRows.mp stale).1.2⟩
  · have silent : staleRows self new state = ∅ ∧ missing self new state = ∅ ↔
        stored self state = new := by
      rw [staleRows_eq_empty_iff, added, Finset.sdiff_eq_empty_iff_subset,
        ← Finset.Subset.antisymm_iff]
    rw [tracker_after]
    by_cases same : stored self state = new
    · rw [if_pos same, if_pos (silent.mpr same)]
    · rw [if_neg same, if_neg fun quiet => same (silent.mp quiet)]

private theorem current_of_replaced {new : Finset Text} {after : State}
    (done : bulkCreate self (missing self new state) (deleted self new state) = (.ok (), after))
    (sound : Sound self state) (exact : stored self after = new) : Current self new state := by
  intro cached cache content inside
  have listening := (sound_deleted sound new).listening
  by_cases apart : Disjoint (missing self new state) (stored self (deleted self new state))
  · rw [bulkCreate_eq listening apart] at done
    have whole : stored self (inserted self (missing self new state) (deleted self new state)) =
        stored self (deleted self new state) ∪ missing self new state := stored_inserted _
    rw [(Prod.mk.inj done).2, exact, stored_deleted] at whole
    have lost : content ∈ stored self state ∩ new ∪ missing self new state := whole ▸ inside
    have twice : content ∈ missing self new state →
        content ∉ stored self (deleted self new state) := fun gone =>
      Finset.disjoint_left.mp apart gone
    rw [stored_deleted] at twice
    simp only [missing, cache, Option.getD_some, Finset.mem_union, Finset.mem_inter,
      Finset.mem_sdiff] at lost twice
    tauto
  · rw [bulkCreate_clash apart] at done
    exact absurd (Prod.mk.inj done).1 (by simp)

/-- Records are replaced exactly if nothing is prefetched that is out of date on them. -/
theorem replacesExactly_iff (sound : Sound self state) :
    ReplacesExactly escapes self records state ↔
      ∀ new, cleanRecords escapes env self.item records = .ok new →
        Current self (canonicalForms env self.item records) state := by
  constructor
  · rintro ⟨-, replaces⟩ new clean
    obtain ⟨after, done, replaced⟩ := replaces new clean
    rw [saveRecords_of_clean sound clean] at done
    obtain rfl := forms_of_clean clean
    exact current_of_replaced done sound replaced.exact
  · intro current
    refine ⟨fun raised failed => saveRecords_of_error failed, fun new clean => ?_⟩
    obtain rfl := forms_of_clean clean
    obtain ⟨done, replaced⟩ := replaced_of_current sound (current _ clean)
    exact ⟨_, (saveRecords_of_clean sound clean).trans done, replaced⟩

/-- Nothing is prefetched, or the rows that are stored. -/
def AsRead (self : RRset env) (state : State) : Prop :=
  ∀ cached, self.prefetched = some cached → cached = rowsOf self.pk state.rrs

private theorem current_of_asRead (read : AsRead self state) (new : Finset Text) :
    Current self new state := by
  intro cached cache content _
  rw [read cached cache]
  rfl

end Replacement

/-! ### Runs -/

section Runs

variable {escapes : (content type : Text) → Bool} {env : Env} {self other : RRset env}
  {records : List Text} {before after : State}

/-- The updates of a list, one after the other. -/
def saveAll (escapes : (content type : Text) → Bool) :
    List (RRset env × List Text) → Effect Unit
  | [] => pure ()
  | update :: rest => do
      saveRecords escapes update.1 update.2
      saveAll escapes rest

private theorem sound_of_replaced {new : Finset Text} (replaced : Replaced self new before after)
    (sound : Sound other before) : Sound other after := by
  refine ⟨replaced.sound.below, replaced.sound.ids, replaced.sound.unique, fun t active => ?_⟩
  rw [replaced.recorded] at active
  split at active
  · exact sound.listening t active
  · obtain ⟨was, there, rfl⟩ := Option.map_eq_some_iff.mp active
    exact (sound.listening was there).recordModification

private theorem rowsOf_of_replaced {new : Finset Text} (replaced : Replaced self new before after)
    {pk : Nat} (differ : pk ≠ self.pk) : rowsOf pk after.rrs = rowsOf pk before.rrs := by
  ext rr
  rw [mem_rowsOf, mem_rowsOf]
  constructor
  · rintro ⟨member, rfl⟩
    exact ⟨(replaced.others rr differ).mp member, rfl⟩
  · rintro ⟨member, rfl⟩
    exact ⟨(replaced.others rr differ).mpr member, rfl⟩

/-- RRsets that are all prefetched at first can be updated one after the other. -/
theorem saveAll_exact {updates : List (RRset env × List Text)} :
    ∀ {before : State}, (updates.map fun update => update.1.pk).Nodup →
      (∀ update ∈ updates, Sound update.1 before ∧ AsRead update.1 before ∧
        ∃ new, cleanRecords escapes env update.1.item update.2 = .ok new) →
      ∃ after, saveAll escapes updates before = (.ok (), after) ∧
        (∀ update ∈ updates, stored update.1 after =
          canonicalForms env update.1.item update.2) ∧
        ∀ pk, pk ∉ updates.map (fun update => update.1.pk) →
          rowsOf pk after.rrs = rowsOf pk before.rrs := by
  induction updates with
  | nil =>
    intro before _ _
    exact ⟨before, rfl, by simp, fun _ _ => rfl⟩
  | cons update rest ih =>
    intro before nodup ready
    obtain ⟨fresh, nodup⟩ := List.nodup_cons.mp nodup
    obtain ⟨sound, read, new, clean⟩ := ready update (List.mem_cons_self ..)
    have replaces : ReplacesExactly escapes update.1 update.2 before :=
      (replacesExactly_iff sound).mpr fun _ _ => current_of_asRead read _
    obtain ⟨next, done, replaced⟩ := replaces.2 new clean
    have differ {pk : Nat} (member : pk ∈ rest.map fun update => update.1.pk) :
        pk ≠ update.1.pk := by
      intro same
      rw [same] at member
      exact fresh member
    obtain ⟨after, later, each, frame⟩ := ih nodup fun other member => by
      obtain ⟨soundOther, readOther, cleanOther⟩ := ready other (List.mem_cons_of_mem _ member)
      refine ⟨sound_of_replaced replaced soundOther, fun cached cache => ?_, cleanOther⟩
      rw [readOther cached cache,
        rowsOf_of_replaced replaced (differ (List.mem_map_of_mem member))]
    refine ⟨after, (run_ok done).trans later, fun other member => ?_, fun pk outside => ?_⟩
    · rcases List.mem_cons.mp member with rfl | member
      · rw [stored, frame _ fresh]
        exact replaced.exact
      · exact each other member
    · rw [List.map_cons, List.mem_cons, not_or] at outside
      rw [frame pk outside.2, rowsOf_of_replaced replaced outside.1]

/-- An RRset by its contents, as it is modelled where its rows do not matter. -/
def Matches (session : Session) (self : RRset env) (state : State) : Prop :=
  ∃ old, value session.db env.name self.item = some old ∧ old.records = stored self state

/-- Row by row, the records become what they become as a set. -/
theorem refines_saveRecords {session session' : Session} (sound : Sound self before)
    (read : AsRead self before) (plain : ∀ record ∈ records, escapes record self.item.1 = false)
    (starts : Matches session self before)
    (done : Save.saveRecords env session self.item records = .ok session') :
    ∃ after, saveRecords escapes self records before = (.ok (), after) ∧
      Matches session' self after := by
  obtain ⟨old, found, -⟩ := starts
  obtain ⟨new, clean, value⟩ := Values.value_of_saveRecords found done
  have cleaned : cleanRecords escapes env self.item records = .ok new := by
    have none : (records.any fun record => escapes record self.item.1) = false := by
      simpa using plain
    rw [cleanRecords, none, clean]
    rfl
  have replaces : ReplacesExactly escapes self records before :=
    (replacesExactly_iff sound).mpr fun _ _ => current_of_asRead read _
  obtain ⟨after, ends, replaced⟩ := replaces.2 new cleaned
  refine ⟨after, ends, _, value, ?_⟩
  rw [replaced.exact]
  exact forms_of_clean cleaned

end Runs

section Exact

variable {escapes : (content type : Text) → Bool} {env : Env} {self : RRset env}
  {records : List Text} {state : State}

/-- Replacing records is exact, minimal and reported precisely where nothing is prefetched that
is out of date on the records. In particular it is where the rows were read before the call, so
that the deletion makes them stale. -/
theorem replacement_exact_iff (sound : Sound self state) :
    (ReplacesExactly escapes self records state ↔
      ∀ new, cleanRecords escapes env self.item records = .ok new →
        Current self (canonicalForms env self.item records) state) ∧
    (AsRead self state → ReplacesExactly escapes self records state) :=
  ⟨replacesExactly_iff sound,
    fun read => (replacesExactly_iff sound).mpr fun _ _ => current_of_asRead read _⟩

end Exact

/-! ### Samples -/

private noncomputable def sampleEnv : Env where
  unicode := .plain
  dns := ⟨{"A".toList}, fun content _ => .ok content, fun _ content => content, fun _ _ => false⟩
  cascade := ⟨default, default⟩
  contents := default
  items := default
  name := "a.example".toList

private def first : RR := ⟨1, 1, "192.0.2.1".toList⟩

private def second : RR := ⟨2, 1, "192.0.2.2".toList⟩

private noncomputable def sampleRRset (prefetched : Finset RR) : RRset sampleEnv where
  pk := 1
  item := ("A".toList, "www".toList)
  ttl := 3600
  clean := by decide
  prefetched := some prefetched

private def sampleState (rr : RR) : State := ⟨{rr}, 3, some enter⟩

private theorem sound_sample (cached : Finset RR) {rr : RR} (early : rr.id < 3) :
    Sound (sampleRRset cached) (sampleState rr) := by
  refine ⟨fun a member => ?_, fun a b member member' _ => ?_, fun a b member member' _ _ => ?_,
    fun t active => ?_⟩
  · rwa [Finset.mem_singleton.mp member]
  · exact (Finset.mem_singleton.mp member).trans (Finset.mem_singleton.mp member').symm
  · exact (Finset.mem_singleton.mp member).trans (Finset.mem_singleton.mp member').symm
  · obtain rfl := Option.some.inj active
    exact ⟨aligned_enter, Finset.notMem_empty _⟩

/-- An address is replaced in an RRset whose rows have been prefetched. -/
theorem replacement_exact_prefetched :
    ReplacesExactly (fun _ _ => false) (sampleRRset {first}) ["192.0.2.2".toList]
      (sampleState first) := by
  apply (replacement_exact_iff (sound_sample {first} (by decide))).2
  intro cached cache
  obtain rfl := Option.some.inj cache
  rfl

/-- Where a prefetched address is no longer stored, it is not stored again. -/
theorem stale_address_lost : Sound (sampleRRset {first}) (sampleState second) ∧
    ¬ ReplacesExactly (fun _ _ => false) (sampleRRset {first}) ["192.0.2.1".toList]
      (sampleState second) := by
  refine ⟨sound_sample _ (by decide), fun replaces => ?_⟩
  have clean : cleanRecords (fun _ _ => false) sampleEnv (sampleRRset {first}).item
      ["192.0.2.1".toList] = .ok {"192.0.2.1".toList} := rfl
  have current := (replacesExactly_iff (sound_sample _ (by decide))).mp replaces _ clean {first} rfl
    "192.0.2.1".toList (mem_canonicalForms.mpr ⟨_, List.mem_singleton_self _, rfl⟩)
  have lost := current.mp (mem_contents.mpr ⟨first, Finset.mem_singleton_self _, rfl⟩)
  obtain ⟨rr, member, -, same⟩ := mem_stored.mp lost
  rw [Finset.mem_singleton.mp member] at same
  exact absurd same (by decide)

end DesecStack.Records.Replacement
