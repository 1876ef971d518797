/- module: DesecStack/Changes/Disjointness
   source: api/desecapi/pdns_change_tracker.py 10-36, 264-376
   digest: What the class documents about its sets, for every valid sequence of signals. -/

import DesecStack.Changes.Compute

set_option autoImplicit false
set_option relaxedAutoImplicit false

namespace DesecStack.Changes.Disjointness

open Library.PyText (Text Unicode)
open Library.SetOrder (mem_visit_iff)
open Library.Journal (Event Life Mark Flip recordAll_of_life)
open Models History Tracker Compute

/-- The domains that exist, and the RRsets of each. -/
structure Presence where
  domains : Finset Text
  rrsets : Finset (Text × Item)

/-- A signal that can be sent: what is created was absent, what is modified or deleted was present.
An RR changes its RRset. -/
def Presence.accept (now : Presence) : Signal → Option Presence
  | .rrPostSave name item _ | .rrPostDelete name item | .rrsetPostSave name item false =>
    if (name, item) ∈ now.rrsets then some now else none
  | .rrsetPostSave name item true =>
    if (name, item) ∈ now.rrsets then none
    else some { now with rrsets := insert (name, item) now.rrsets }
  | .rrsetPostDelete name item =>
    if (name, item) ∈ now.rrsets then some { now with rrsets := now.rrsets.erase (name, item) }
    else none
  | .domainPostSave name true =>
    if name ∈ now.domains then none else some { now with domains := insert name now.domains }
  | .domainPostSave name false => if name ∈ now.domains then some now else none
  | .domainPostDelete name =>
    if name ∈ now.domains then some { now with domains := now.domains.erase name } else none

/-- A valid sequence of signals, from what was there at the start to what is there now. -/
inductive Valid (start : Presence) : List Signal → Presence → Prop where
  | start : Valid start [] start
  | next {signals : List Signal} {now later : Presence} {signal : Signal}
      (valid : Valid start signals now) (accepted : now.accept signal = some later) :
      Valid start (signals ++ [signal]) later

/-- What the documentation guarantees, and what `_compute_changes` asserts. -/
structure Guaranteed (start now : Presence) (t : PDNSChangeTracker) : Prop where
  domains : Disjoint t.domainAdditions t.domainDeletions
  domainAdditions : t.domainAdditions = now.domains \ start.domains
  domainDeletions : t.domainDeletions = start.domains \ now.domains
  additions : ∀ name, Disjoint (pending t name).additions (pending t name).deletions
  modifications : ∀ name, Disjoint (pending t name).modifications (pending t name).deletions
  aligned : Aligned t
  computed : ∀ orders db, (computeChanges orders t db).isSome

section Presence

variable {start now later : Presence} {signals : List Signal} {signal : Signal}

/-- Whether an RRset is there. -/
def Presence.rrset (now : Presence) (name : Text) (item : Item) : Option Unit :=
  if (name, item) ∈ now.rrsets then some () else none

private theorem rrset_eq_some {name : Text} {item : Item} (present : (name, item) ∈ now.rrsets) :
    now.rrset name item = some () := if_pos present

private theorem rrset_eq_none {name : Text} {item : Item} (absent : (name, item) ∉ now.rrsets) :
    now.rrset name item = none := if_neg absent

private theorem life_of_accept {name : Text} {item : Item} {before : List Event}
    {first : Option Unit}
    (accepted : now.accept signal = some later)
    (life : Life (fun _ => true) first before (now.rrset name item)) :
    Life (fun _ => true) first (before ++ (signal.event name item).toList)
      (later.rrset name item) := by
  have modified {n : Text} {i : Item} (present : (n, i) ∈ now.rrsets) :
      Life (fun _ => true) first
        (before ++ (if n = name ∧ i = item then some Event.modified else none).toList)
        (now.rrset name item) := by
    split
    · next same =>
      obtain ⟨rfl, rfl⟩ := same
      rw [rrset_eq_some present] at life ⊢
      exact life.modified ()
    · simpa using life
  cases signal with
  | rrPostSave n i created =>
    simp only [Presence.accept, Option.ite_none_right_eq_some, Option.some.injEq] at accepted
    obtain ⟨present, rfl⟩ := accepted
    exact modified present
  | rrPostDelete n i =>
    simp only [Presence.accept, Option.ite_none_right_eq_some, Option.some.injEq] at accepted
    obtain ⟨present, rfl⟩ := accepted
    exact modified present
  | rrsetPostSave n i created =>
    cases created with
    | false =>
      simp only [Presence.accept, Option.ite_none_right_eq_some, Option.some.injEq] at accepted
      obtain ⟨present, rfl⟩ := accepted
      exact modified present
    | true =>
      simp only [Presence.accept, Option.ite_none_left_eq_some, Option.some.injEq] at accepted
      obtain ⟨absent, rfl⟩ := accepted
      by_cases same : n = name ∧ i = item
      · obtain ⟨rfl, rfl⟩ := same
        rw [rrset_eq_none absent] at life
        simpa [Signal.event, Presence.rrset] using life.created (v := ()) rfl
      · have other : ¬ (name = n ∧ item = i) := fun both =>
          same ⟨both.1.symm, both.2.symm⟩
        simpa [Signal.event, same, Presence.rrset, other] using life
  | rrsetPostDelete n i =>
    simp only [Presence.accept, Option.ite_none_right_eq_some, Option.some.injEq] at accepted
    obtain ⟨present, rfl⟩ := accepted
    by_cases same : n = name ∧ i = item
    · obtain ⟨rfl, rfl⟩ := same
      rw [rrset_eq_some present] at life
      simpa [Signal.event, Presence.rrset] using life.deleted
    · have other : ¬ (name = n ∧ item = i) := fun both =>
          same ⟨both.1.symm, both.2.symm⟩
      simpa [Signal.event, same, Presence.rrset, other] using life
  | domainPostSave n created =>
    have unchanged : later.rrsets = now.rrsets := by
      cases created with
      | true =>
        simp only [Presence.accept, Option.ite_none_left_eq_some, Option.some.injEq] at accepted
        rw [← accepted.2]
      | false =>
        simp only [Presence.accept, Option.ite_none_right_eq_some, Option.some.injEq] at accepted
        rw [accepted.2]
    simpa [Signal.event, Presence.rrset, unchanged] using life
  | domainPostDelete n =>
    simp only [Presence.accept, Option.ite_none_right_eq_some, Option.some.injEq] at accepted
    obtain ⟨_, rfl⟩ := accepted
    simpa [Signal.event, Presence.rrset] using life

private theorem life_of_valid (valid : Valid start signals now) (name : Text) (item : Item) :
    Life (fun _ => true) (start.rrset name item) (events name item signals)
      (now.rrset name item) := by
  induction valid with
  | start => exact .start
  | @next signals now later signal valid accepted ih =>
    rw [events_append, events_cons, events_nil, List.append_nil]
    exact life_of_accept accepted ih

private theorem flip_of_accept {name : Text} (first : Bool)
    (accepted : now.accept signal = some later) :
    (signal.presence name).toList.foldl Flip.record
        (Flip.between first (decide (name ∈ now.domains))) =
      Flip.between first (decide (name ∈ later.domains)) := by
  cases signal with
  | domainPostSave n created =>
    cases created with
    | true =>
      simp only [Presence.accept, Option.ite_none_left_eq_some, Option.some.injEq] at accepted
      obtain ⟨absent, rfl⟩ := accepted
      by_cases same : n = name
      · subst same
        simpa [Signal.presence, absent] using Flip.record_between first true
      · simp [Signal.presence, same, Ne.symm same]
    | false =>
      simp only [Presence.accept, Option.ite_none_right_eq_some, Option.some.injEq] at accepted
      rw [accepted.2]
      simp [Signal.presence]
  | domainPostDelete n =>
    simp only [Presence.accept, Option.ite_none_right_eq_some, Option.some.injEq] at accepted
    obtain ⟨present, rfl⟩ := accepted
    by_cases same : n = name
    · subst same
      simpa [Signal.presence, present] using Flip.record_between first false
    · simp [Signal.presence, same, Ne.symm same]
  | rrPostSave n i created =>
    simp only [Presence.accept, Option.ite_none_right_eq_some, Option.some.injEq] at accepted
    rw [accepted.2]
    rfl
  | rrPostDelete n i =>
    simp only [Presence.accept, Option.ite_none_right_eq_some, Option.some.injEq] at accepted
    rw [accepted.2]
    rfl
  | rrsetPostSave n i created =>
    cases created with
    | false =>
      simp only [Presence.accept, Option.ite_none_right_eq_some, Option.some.injEq] at accepted
      rw [accepted.2]
      rfl
    | true =>
      simp only [Presence.accept, Option.ite_none_left_eq_some, Option.some.injEq] at accepted
      rw [← accepted.2]
      rfl
  | rrsetPostDelete n i =>
    simp only [Presence.accept, Option.ite_none_right_eq_some, Option.some.injEq] at accepted
    rw [← accepted.2]
    rfl

private theorem flip_of_valid (valid : Valid start signals now) (name : Text) :
    (presences name signals).foldl Flip.record Flip.clean =
      Flip.between (decide (name ∈ start.domains)) (decide (name ∈ now.domains)) := by
  induction valid with
  | start => exact (Flip.between_self _).symm
  | @next signals now later signal valid accepted ih =>
    rw [presences_append, List.foldl_append, ih, presences_cons, presences_nil, List.append_nil]
    exact flip_of_accept _ accepted

end Presence

/-- Every valid sequence of signals is received without a failed assertion, and leaves the sets as
they are documented. -/
theorem guaranteed_of_valid {start now : Presence} {signals : List Signal}
    (valid : Valid start signals now) :
    ∃ t, receiveAll enter signals = some t ∧ Guaranteed start now t := by
  have recorded (name : Text) (item : Item) :=
    recordAll_of_life (life_of_valid valid name item)
  have clean (name : Text) (item : Item) : mark enter name item = Mark.clean := rfl
  obtain ⟨t, received, run, -⟩ :=
    receivedAll_of_recordable signals aligned_enter fun name item => by
    obtain ⟨m, marked, -⟩ := recorded name item
    rw [clean]
    exact Option.isSome_iff_exists.mpr ⟨m, marked⟩
  -- a pending RRset is there if it is added or modified, and it is not if it is deleted
  have agrees (name : Text) (item : Item) :
      (item ∈ (pending t name).additions → (now.rrset name item).isSome) ∧
        (item ∈ (pending t name).modifications → (now.rrset name item).isSome) ∧
        (item ∈ (pending t name).deletions → now.rrset name item = none) := by
    obtain ⟨m, marked, agrees⟩ := recorded name item
    have same := run.marks name item
    rw [clean, ← Mark.recordAll, marked] at same
    rw [Option.some.inj same] at agrees
    exact ⟨fun added => (agrees.added_present (by simpa [mark, Pending.mark] using added)).1,
      fun modified => agrees.modified_present (by simpa [mark, Pending.mark] using modified),
      fun deleted => (agrees.deleted_absent (by simpa [mark, Pending.mark] using deleted)).1⟩
  have additions (name : Text) :
      Disjoint (pending t name).additions (pending t name).deletions := by
    refine Finset.disjoint_left.mpr fun item added deleted => ?_
    have present := (agrees name item).1 added
    rw [(agrees name item).2.2 deleted] at present
    cases present
  have modifications (name : Text) :
      Disjoint (pending t name).modifications (pending t name).deletions := by
    refine Finset.disjoint_left.mpr fun item modified deleted => ?_
    have present := (agrees name item).2.1 modified
    rw [(agrees name item).2.2 deleted] at present
    cases present
  have flips (name : Text) : domainFlip t name =
      Flip.between (decide (name ∈ start.domains)) (decide (name ∈ now.domains)) := by
    rw [← run.flips name, ← flip_of_valid valid name]
    rfl
  have added : t.domainAdditions = now.domains \ start.domains := by
    ext name
    have said := congrArg Flip.added (flips name)
    simp only [domainFlip, Flip.between] at said
    rw [Finset.mem_sdiff, ← decide_eq_true_iff (p := name ∈ t.domainAdditions), said]
    simp
  have deleted : t.domainDeletions = start.domains \ now.domains := by
    ext name
    have said := congrArg Flip.deleted (flips name)
    simp only [domainFlip, Flip.between] at said
    rw [Finset.mem_sdiff, ← decide_eq_true_iff (p := name ∈ t.domainDeletions), said]
    simp
  refine ⟨t, received, ?_, added, deleted, additions, modifications, run.aligned,
    computeChanges_isSome_of_disjoint additions modifications⟩
  rw [added, deleted]
  exact disjoint_sdiff_sdiff

/-- An RRset that is deleted and created again. -/
def recreating : List Signal :=
  [.rrsetPostDelete "a.test".toList ("A".toList, []),
    .rrsetPostSave "a.test".toList ("A".toList, []) true,
    .rrPostSave "a.test".toList ("A".toList, []) true, .domainPostSave "b.test".toList true]

theorem guaranteed_recreating :
    ∃ t, receiveAll enter recreating = some t ∧
      Guaranteed ⟨{"a.test".toList}, {("a.test".toList, ("A".toList, []))}⟩
        ⟨{"b.test".toList, "a.test".toList}, {("a.test".toList, ("A".toList, []))}⟩ t :=
  guaranteed_of_valid ((((Valid.start.next rfl).next rfl).next rfl).next rfl)

section Writes

variable {unicode : Unicode} {cascade : Cascade} {start now later : Presence}
  {db next : Database} {sent : List Signal} {name : Text}

/-- What is there in a database. -/
def presence (db : Database) : Presence where
  domains := db.keys
  rrsets := db.keys.biUnion fun name => (itemsOf db name).image fun item => (name, item)

private theorem mem_domains : name ∈ (presence db).domains ↔ (db.lookup name).isSome := by
  rw [presence, Finmap.mem_keys, Finmap.lookup_isSome]

private theorem mem_rrsets {item : Item} :
    (name, item) ∈ (presence db).rrsets ↔ (value db name item).isSome := by
  simp only [presence, Finset.mem_biUnion, Finset.mem_image, Prod.mk.injEq, Finmap.mem_keys]
  constructor
  · rintro ⟨name, _, item, there, rfl, rfl⟩
    exact mem_itemsOf.mp there
  · intro present
    obtain ⟨rrset, found⟩ := Option.isSome_iff_exists.mp present
    exact ⟨name, Finmap.lookup_isSome.mp (lookup_of_value found), item, mem_itemsOf.mpr present,
      rfl, rfl⟩

private theorem eq_presence {now : Presence}
    (domains : ∀ name, name ∈ now.domains ↔ (db.lookup name).isSome)
    (rrsets : ∀ name item, (name, item) ∈ now.rrsets ↔ (value db name item).isSome) :
    now = presence db := by
  have sameDomains : now.domains = (presence db).domains := by
    ext name
    rw [domains, mem_domains]
  have sameRRsets : now.rrsets = (presence db).rrsets := by
    ext ⟨name, item⟩
    rw [rrsets, mem_rrsets]
  obtain ⟨_, _⟩ := now
  obtain rfl := sameDomains
  obtain rfl := sameRRsets
  rfl

private theorem Valid.append {first second : List Signal} (one : Valid start first now)
    (other : Valid now second later) : Valid start (first ++ second) later := by
  induction other with
  | start => simpa using one
  | @next signals mid later signal _ accepted ih =>
    rw [← List.append_assoc]
    exact ih.next accepted

private theorem valid_single {signal : Signal} (accepted : now.accept signal = some later) :
    Valid now [signal] later := Valid.start.next accepted

private theorem valid_rows {rows : List (Item × Text)}
    (present : ∀ row ∈ rows, (name, row.1) ∈ now.rrsets) :
    Valid now (rows.map fun row => .rrPostDelete name row.1) now := by
  induction rows with
  | nil => exact .start
  | cons row rows ih =>
    obtain ⟨first, others⟩ := List.forall_mem_cons.mp present
    have step : now.accept (.rrPostDelete name row.1) = some now := if_pos first
    exact (valid_single step).append (ih others)

private theorem valid_items {items : List Item} (nodup : items.Nodup)
    (present : ∀ item ∈ items, (name, item) ∈ now.rrsets) :
    ∃ later, Valid now (items.map fun item => .rrsetPostDelete name item) later ∧
      later.domains = now.domains ∧ ∀ d i, (d, i) ∈ later.rrsets ↔
        (d, i) ∈ now.rrsets ∧ ¬ (d = name ∧ i ∈ items) := by
  induction items generalizing now with
  | nil => exact ⟨now, .start, rfl, by simp⟩
  | cons item items ih =>
    obtain ⟨first, others⟩ := List.forall_mem_cons.mp present
    obtain ⟨absent, nodup⟩ := List.nodup_cons.mp nodup
    have step : now.accept (.rrsetPostDelete name item) =
      some { now with rrsets := now.rrsets.erase (name, item) } := if_pos first
    have still : ∀ other ∈ items, (name, other) ∈ now.rrsets.erase (name, item) := by
      intro other member
      have apart : other ≠ item := fun same => absent (same ▸ member)
      simpa [apart] using others other member
    obtain ⟨later, rest, domains, left⟩ :=
      @ih { now with rrsets := now.rrsets.erase (name, item) } nodup still
    refine ⟨later, (valid_single step).append rest, domains, fun d i => ?_⟩
    rw [left d i]
    simp only [Finset.mem_erase, ne_eq, Prod.mk.injEq, List.mem_cons]
    tauto

private theorem valid_deletedWithDomain {rrsets : RRsets} (found : db.lookup name = some rrsets) :
    Valid (presence db) (deletedWithDomain cascade name rrsets) (presence (db.erase name)) := by
  have there (item : Item) : (name, item) ∈ (presence db).rrsets ↔ item ∈ rrsets.keys := by
    rw [mem_rrsets, value, found, Finmap.mem_keys, ← Finmap.lookup_isSome]
    rfl
  have stored (row : Item × Text) (member : row ∈ rows rrsets) : row.1 ∈ rrsets.keys := by
    simp only [rows, Finset.mem_biUnion, Finset.mem_image] at member
    obtain ⟨item, key, content, -, rfl⟩ := member
    exact key
  have emptied : Valid (presence db) ((cascade.rows.visit (rows rrsets)).map
      fun row => .rrPostDelete name row.1) (presence db) :=
    valid_rows fun row member =>
      (there row.1).mpr (stored row ((mem_visit_iff _ _ _).mp member))
  obtain ⟨mid, removed, domains, left⟩ : ∃ mid, Valid (presence db)
      ((cascade.items.visit rrsets.keys).map fun item => .rrsetPostDelete name item) mid ∧ _ :=
    valid_items (cascade.items.nodup _) fun item member =>
      (there item).mpr ((mem_visit_iff _ _ _).mp member)
  have last : mid.accept (.domainPostDelete name) =
      some { mid with domains := mid.domains.erase name } := by
    apply if_pos
    rw [domains, mem_domains, found]
    rfl
  have whole := (emptied.append removed).append (valid_single last)
  have same : ({ mid with domains := mid.domains.erase name } : Presence) =
      presence (db.erase name) := by
    apply eq_presence
    · intro d
      rw [domains, Finset.mem_erase, mem_domains]
      by_cases same : d = name
      · subst same
        simp
      · simp [same, Finmap.lookup_erase_ne same]
    · intro d i
      rw [value_erase]
      refine (left d i).trans ?_
      by_cases same : d = name
      · subst same
        simp [there]
      · simp [same, mem_rrsets]
  rwa [same] at whole

private theorem accept_of_modified {item : Item} {signal : Signal}
    (present : (name, item) ∈ now.rrsets)
    (said : ∀ d i, signal.event d i = if name = d ∧ item = i then some .modified else none) :
    now.accept signal = some now := by
  have here := said name item
  rw [if_pos ⟨rfl, rfl⟩] at here
  cases signal with
  | rrPostSave n i created =>
    simp only [Signal.event, Option.ite_none_right_eq_some] at here
    obtain ⟨⟨rfl, rfl⟩, _⟩ := here
    exact if_pos present
  | rrPostDelete n i =>
    simp only [Signal.event, Option.ite_none_right_eq_some] at here
    obtain ⟨⟨rfl, rfl⟩, _⟩ := here
    exact if_pos present
  | rrsetPostSave n i created =>
    simp only [Signal.event, Option.ite_none_right_eq_some] at here
    obtain ⟨⟨rfl, rfl⟩, which⟩ := here
    cases created with
    | false => exact if_pos present
    | true => simp at which
  | rrsetPostDelete n i =>
    simp only [Signal.event, Option.ite_none_right_eq_some] at here
    cases Option.some.inj here.2
  | domainPostSave n created => cases here
  | domainPostDelete n => cases here

private theorem presence_put {item : Item} {rrset : Option RRset}
    (present : (db.lookup name).isSome)
    (kept : ∀ d i, (d, i) ∈ later.rrsets ↔
      if d = name ∧ i = item then rrset.isSome = true else (d, i) ∈ (presence db).rrsets)
    (domains : later.domains = (presence db).domains) :
    later = presence (put db name item rrset) := by
  apply eq_presence
  · intro d
    rw [domains, mem_domains, lookup_put_isSome]
  · intro d i
    rw [kept, value_put present]
    split
    · rfl
    · exact mem_rrsets

private theorem valid_of_effect (effect : Effect unicode cascade db next sent) :
    Valid (presence db) sent (presence next) := by
  cases effect with
  | domainCreated name absent clean =>
    apply valid_single
    have fresh : name ∉ (presence db).domains := by simp [mem_domains, absent]
    rw [Presence.accept, if_neg fresh, Option.some.injEq]
    apply eq_presence
    · intro d
      rw [Finset.mem_insert, mem_domains]
      by_cases same : d = name
      · subst same
        simp
      · simp [same, Finmap.lookup_insert_of_ne db same]
    · intro d i
      rw [value_insert_empty absent]
      exact mem_rrsets
  | domainSaved name present => exact valid_single (if_pos (mem_domains.mpr present))
  | domainDeleted name rrsets found => exact valid_deletedWithDomain found
  | created name item ttl present absent =>
    apply valid_single
    have fresh : (name, item) ∉ (presence db).rrsets := by simp [mem_rrsets, absent]
    rw [Presence.accept, if_neg fresh, Option.some.injEq]
    refine presence_put present (fun d i => ?_) rfl
    simp only [Finset.mem_insert, Prod.mk.injEq, Option.isSome_some]
    split <;> simp_all
  | deleted name item old found =>
    have there : (name, item) ∈ (presence db).rrsets := by simp [mem_rrsets, found]
    have emptied : Valid (presence db)
        ((cascade.rows.visit (old.records.image fun content => (item, content))).map
          fun row => .rrPostDelete name row.1) (presence db) := by
      apply valid_rows
      intro row member
      obtain ⟨content, _, rfl⟩ := Finset.mem_image.mp ((mem_visit_iff _ _ _).mp member)
      exact there
    apply emptied.append
    apply valid_single
    rw [Presence.accept, if_pos there, Option.some.injEq]
    refine presence_put (lookup_of_value found) (fun d i => ?_) rfl
    simp only [Finset.mem_erase, ne_eq, Prod.mk.injEq, Option.isSome_none]
    split <;> simp_all
  | modified name item old new signal found said unsaid about =>
    have there : (name, item) ∈ (presence db).rrsets := by simp [mem_rrsets, found]
    have same : presence db = presence (put db name item (some new)) := by
      refine presence_put (lookup_of_value found) (fun d i => ?_) rfl
      split
      · next here =>
        obtain ⟨rfl, rfl⟩ := here
        exact iff_of_true there rfl
      · rfl
    rw [← same]
    exact valid_single (accept_of_modified there said)
  | nothing => exact .start

/-- What a body of writes sends is a valid sequence of signals. -/
theorem valid_of_performAll (operations : List Operation) :
    ∀ {db next : Database} {sent : List Signal},
      performAll unicode cascade operations db = some (next, sent) →
        Valid (presence db) sent (presence next) := by
  induction operations with
  | nil =>
    intro db next sent done
    simp only [performAll, Option.some.injEq, Prod.mk.injEq] at done
    obtain ⟨rfl, rfl⟩ := done
    exact .start
  | cons operation rest ih =>
    intro db next sent done
    simp only [performAll, Option.bind_eq_bind, Option.bind_eq_some_iff, Option.pure_def,
      Option.some.injEq, Prod.exists, Prod.mk.injEq] at done
    obtain ⟨mid, first, performed, last, later, others, rfl, rfl⟩ := done
    exact (valid_of_effect (effect_of_perform performed)).append (ih others)

end Writes

end DesecStack.Changes.Disjointness
