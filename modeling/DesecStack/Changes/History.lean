/- module: DesecStack/Changes/History
   layer: lemmas
   digest: The signals of a valid body of writes tell the life of every RRset and every domain. -/

import DesecStack.Changes.Models

set_option autoImplicit false
set_option relaxedAutoImplicit false

namespace DesecStack.Changes.History

open Library.PyText (Text Dict Unicode)
open Library.SetOrder (VisitOrder mem_visit_iff filterMap_visit)
open Library.Journal (Event Life Flip)
open Names.Validators (validateDomainName)
open Models

variable {unicode : Unicode} {cascade : Cascade}

@[simp] theorem events_append (name : Text) (item : Item) (sent later : List Signal) :
    events name item (sent ++ later) = events name item sent ++ events name item later := by
  simp [events]

@[simp] theorem events_nil (name : Text) (item : Item) : events name item [] = [] := rfl

@[simp] theorem events_cons (name : Text) (item : Item) (signal : Signal) (rest : List Signal) :
    events name item (signal :: rest)
      = (signal.event name item).toList ++ events name item rest := by
  cases said : signal.event name item <;> simp [events, said]

@[simp] theorem presences_nil (name : Text) : presences name [] = [] := rfl

@[simp] theorem presences_cons (name : Text) (signal : Signal) (rest : List Signal) :
    presences name (signal :: rest)
      = (signal.presence name).toList ++ presences name rest := by
  cases said : signal.presence name <;> simp [presences, said]

@[simp] theorem presences_append (name : Text) (sent later : List Signal) :
    presences name (sent ++ later) = presences name sent ++ presences name later := by
  simp [presences]

@[simp] theorem presences_rows (d name : Text) (rows : List (Item × Text)) :
    presences d (rows.map fun row => .rrPostDelete name row.1) = [] := by
  simp [presences, Signal.presence]

@[simp] theorem presences_items (d name : Text) (items : List Item) :
    presences d (items.map fun item => .rrsetPostDelete name item) = [] := by
  simp [presences, Signal.presence]

theorem events_rows_of_ne {d name : Text} (other : name ≠ d) (i : Item)
    (rows : List (Item × Text)) :
    events d i (rows.map fun row => .rrPostDelete name row.1) = [] := by
  simp [events, Signal.event, other]

theorem events_items_of_ne {d name : Text} (other : name ≠ d) (i : Item)
    (items : List Item) :
    events d i (items.map fun item => .rrsetPostDelete name item) = [] := by
  simp [events, Signal.event, other]

theorem events_rows_modified (d name : Text) (i : Item) (rows : List (Item × Text)) :
    ∀ e ∈ events d i (rows.map fun row => .rrPostDelete name row.1), e = .modified := by
  intro e member
  simp only [events, List.mem_filterMap, List.mem_map] at member
  obtain ⟨-, ⟨row, -, rfl⟩, said⟩ := member
  simp only [Signal.event] at said
  split at said <;> simp_all

private theorem events_items (name : Text) (i : Item) (cascade : Cascade) (items : Finset Item) :
    events name i ((cascade.items.visit items).map fun item => .rrsetPostDelete name item)
      = if i ∈ items then [.deleted] else [] := by
  rw [events, List.filterMap_map, ← filterMap_visit cascade.items i Event.deleted items]
  congr 1
  funext item
  simp [Signal.event]

private theorem life_of_put {db : Database} {name : Text} {item : Item}
    {rrset start : Option RRset} {sent : List Signal} {before : List Event}
    (present : (db.lookup name).isSome) (d : Text) (i : Item)
    (elsewhere : ¬ (name = d ∧ item = i) → events d i sent = [])
    (here : Life RRset.blank start before (value db name item) →
      Life RRset.blank start (before ++ events name item sent) rrset)
    (life : Life RRset.blank start before (value db d i)) :
    Life RRset.blank start (before ++ events d i sent) (value (put db name item rrset) d i) := by
  rw [value_put present]
  by_cases same : name = d ∧ item = i
  · obtain ⟨rfl, rfl⟩ := same
    simpa using here life
  · have other : ¬ (d = name ∧ i = item) := fun ⟨hd, hi⟩ => same ⟨hd.symm, hi.symm⟩
    simpa [other, elsewhere same] using life

private theorem key_of_row {rrsets : RRsets} {row : Item × Text} (member : row ∈ rows rrsets) :
    row.1 ∈ rrsets.keys := by
  simp only [rows, Finset.mem_biUnion, Finset.mem_image] at member
  obtain ⟨item, key, content, -, rfl⟩ := member
  exact key

private theorem life_of_delete_domain {db : Database} {name : Text} {rrsets : RRsets}
    {start : Option RRset} {before : List Event}
    (found : db.lookup name = some rrsets) (d : Text) (i : Item)
    (life : Life RRset.blank start before (value db d i)) :
    Life RRset.blank start (before ++ events d i (deletedWithDomain cascade name rrsets))
      (value (db.erase name) d i) := by
  rw [value_erase]
  have last : events d i [.domainPostDelete name] = [] := by simp [Signal.event]
  by_cases same : name = d
  · subst same
    simp only [deletedWithDomain, events_append, events_items, last, List.append_nil, if_true]
    have seen : value db name i = rrsets.lookup i := by simp [value, found]
    by_cases member : i ∈ rrsets.keys
    · obtain ⟨rrset, stored⟩ := Option.isSome_iff_exists.mp
        (Finmap.lookup_isSome.mpr (Finmap.mem_keys.mp member))
      rw [seen, stored] at life
      have emptied := Life.modified_all
        (events_rows_modified name name i (cascade.rows.visit (rows rrsets))) life
      simpa [member, List.append_assoc] using emptied.deleted
    · have absent : rrsets.lookup i = none :=
        Finmap.lookup_eq_none.mpr fun h => member (Finmap.mem_keys.mpr h)
      have silent : events name i ((cascade.rows.visit (rows rrsets)).map
          fun row => .rrPostDelete name row.1) = [] := by
        simp only [events, List.filterMap_map, List.filterMap_eq_nil_iff]
        intro row visited
        have stored := key_of_row ((mem_visit_iff _ _ _).mp visited)
        have other : row.1 ≠ i := fun h => member (h ▸ stored)
        simp [Signal.event, other]
      rw [seen, absent] at life
      simpa [silent, member] using life
  · have : d ≠ name := fun h => same h.symm
    simpa [deletedWithDomain, events_rows_of_ne same, events_items_of_ne same, last, this]
      using life

/-- What one write can do: the shapes of its change and of its signals. -/
inductive Effect (unicode : Unicode) (cascade : Cascade) (db : Database) :
    Database → List Signal → Prop where
  | domainCreated (name : Text) (absent : db.lookup name = none)
      (clean : cleanDomain unicode name = true) :
      Effect unicode cascade db (db.insert name ∅) [.domainPostSave name true]
  | domainSaved (name : Text) (present : (db.lookup name).isSome) :
      Effect unicode cascade db db [.domainPostSave name false]
  | domainDeleted (name : Text) (rrsets : RRsets) (found : db.lookup name = some rrsets) :
      Effect unicode cascade db (db.erase name) (deletedWithDomain cascade name rrsets)
  | created (name : Text) (item : Item) (ttl : Nat) (present : (db.lookup name).isSome)
      (absent : value db name item = none) :
      Effect unicode cascade db (put db name item (some ⟨ttl, ∅⟩)) [.rrsetPostSave name item true]
  | deleted (name : Text) (item : Item) (old : RRset) (found : value db name item = some old) :
      Effect unicode cascade db (put db name item none)
        ((cascade.rows.visit (old.records.image fun content => (item, content))).map
          (fun row => .rrPostDelete name row.1) ++ [.rrsetPostDelete name item])
  | modified (name : Text) (item : Item) (old new : RRset) (signal : Signal)
      (found : value db name item = some old)
      (said : ∀ d i, signal.event d i = if name = d ∧ item = i then some .modified else none)
      (unsaid : ∀ d, signal.presence d = none) (about : signal.domainName = name) :
      Effect unicode cascade db (put db name item (some new)) [signal]
  | nothing : Effect unicode cascade db db []

theorem effect_of_perform {db next : Database} {operation : Operation} {sent : List Signal}
    (done : perform unicode cascade db operation = some (next, sent)) :
    Effect unicode cascade db next sent := by
  cases operation with
  | createDomain name =>
    simp only [perform, Option.ite_none_right_eq_some, Option.some.injEq, Prod.mk.injEq] at done
    obtain ⟨⟨absent, clean⟩, rfl, rfl⟩ := done
    exact .domainCreated name absent clean
  | saveDomain name =>
    simp only [perform, Option.map_eq_some_iff, Prod.mk.injEq] at done
    obtain ⟨rrsets, found, rfl, rfl⟩ := done
    exact .domainSaved name (by simp [found])
  | deleteDomain name =>
    simp only [perform, Option.map_eq_some_iff, Prod.mk.injEq] at done
    obtain ⟨rrsets, found, rfl, rfl⟩ := done
    exact .domainDeleted name rrsets found
  | createRRset name item ttl =>
    simp only [perform, Option.bind_eq_some_iff, Option.ite_none_right_eq_some,
      Option.some.injEq, Prod.mk.injEq] at done
    obtain ⟨rrsets, found, ⟨absent, -⟩, rfl, rfl⟩ := done
    exact .created name item ttl (by simp [found]) (by simp [value, found, absent])
  | saveRRset name item ttl =>
    simp only [perform, Option.bind_eq_some_iff, Option.ite_none_right_eq_some,
      Option.some.injEq, Prod.mk.injEq] at done
    obtain ⟨old, found, -, rfl, rfl⟩ := done
    exact .modified name item old _ _ found (fun _ _ => by simp [Signal.event])
      (fun _ => rfl) rfl
  | deleteRRset name item =>
    simp only [perform, Option.map_eq_some_iff, Prod.mk.injEq] at done
    obtain ⟨old, found, rfl, rfl⟩ := done
    exact .deleted name item old found
  | createRR name item content =>
    simp only [perform, Option.bind_eq_some_iff, Option.ite_none_right_eq_some,
      Option.some.injEq, Prod.mk.injEq] at done
    obtain ⟨old, found, -, rfl, rfl⟩ := done
    exact .modified name item old _ _ found (fun _ _ => rfl) (fun _ => rfl) rfl
  | saveRR name item oldContent newContent =>
    simp only [perform, Option.bind_eq_some_iff, Option.ite_none_right_eq_some,
      Option.some.injEq, Prod.mk.injEq] at done
    obtain ⟨old, found, -, rfl, rfl⟩ := done
    exact .modified name item old _ _ found (fun _ _ => rfl) (fun _ => rfl) rfl
  | deleteRR name item content =>
    simp only [perform, Option.bind_eq_some_iff, Option.ite_none_right_eq_some,
      Option.some.injEq, Prod.mk.injEq] at done
    obtain ⟨old, found, -, rfl, rfl⟩ := done
    exact .modified name item old _ _ found (fun _ _ => rfl) (fun _ => rfl) rfl
  | bulkCreateRRs name item contents =>
    simp only [perform, Option.bind_eq_some_iff] at done
    obtain ⟨old, found, done⟩ := done
    split at done
    · obtain ⟨rfl, rfl⟩ := Prod.mk.inj (Option.some.inj done)
      exact .nothing
    · simp only [Option.ite_none_right_eq_some, Option.some.injEq, Prod.mk.injEq] at done
      obtain ⟨-, rfl, rfl⟩ := done
      exact .modified name item old _ _ found (fun _ _ => by simp [Signal.event])
        (fun _ => rfl) rfl

private theorem Effect.life {db next : Database} {sent : List Signal}
    (effect : Effect unicode cascade db next sent) (d : Text) (i : Item)
    {start : Option RRset} {before : List Event}
    (life : Life RRset.blank start before (value db d i)) :
    Life RRset.blank start (before ++ events d i sent) (value next d i) := by
  cases effect with
  | domainCreated name absent clean =>
    simpa [value_insert_empty absent, Signal.event] using life
  | domainSaved name present => simpa [Signal.event] using life
  | domainDeleted name rrsets found => exact life_of_delete_domain found d i life
  | created name item ttl present absent =>
    refine life_of_put present d i (fun other => ?_) (fun life => ?_) life
    · simp [Signal.event, other]
    · rw [absent] at life
      simpa [Signal.event] using life.created (v := ⟨ttl, ∅⟩) (by simp [RRset.blank])
  | deleted name item old found =>
    refine life_of_put (lookup_of_value found) d i (fun other => ?_) (fun life => ?_) life
    · simp only [events, List.filterMap_append, List.filterMap_map, List.append_eq_nil_iff,
        List.filterMap_eq_nil_iff]
      refine ⟨fun row visited => ?_, by simp [Signal.event, other]⟩
      obtain ⟨content, -, rfl⟩ := Finset.mem_image.mp ((mem_visit_iff _ _ _).mp visited)
      simp [Signal.event, other]
    · rw [found] at life
      have emptied := Life.modified_all
        (events_rows_modified name name item (cascade.rows.visit
          (old.records.image fun content => (item, content)))) life
      have last : events name item [.rrsetPostDelete name item] = [.deleted] := by
        simp [Signal.event]
      simpa [events_append, last, List.append_assoc] using emptied.deleted
  | modified name item old new signal found said unsaid about =>
    refine life_of_put (lookup_of_value found) d i (fun other => ?_) (fun life => ?_) life
    · simp [said, other]
    · rw [found] at life
      simpa [said] using life.modified new
  | nothing => simpa using life

private theorem Effect.presence {db next : Database} {sent : List Signal}
    (effect : Effect unicode cascade db next sent) (d : Text) (start : Bool) :
    (presences d sent).foldl Flip.record (Flip.between start (db.lookup d).isSome)
      = Flip.between start (next.lookup d).isSome := by
  cases effect with
  | domainCreated name absent clean =>
    by_cases same : name = d
    · subst same
      simpa [Signal.presence, absent] using Flip.record_between start true
    · simp [Signal.presence, same, Finmap.lookup_insert_of_ne db (Ne.symm same)]
  | domainSaved name present => simp [Signal.presence]
  | domainDeleted name rrsets found =>
    by_cases same : name = d
    · subst same
      have last := Flip.record_between start false
      have said : presences name [.domainPostDelete name] = [false] := by
        simp [Signal.presence]
      simpa [deletedWithDomain, found, said] using last
    · have said : presences d [.domainPostDelete name] = [] := by
        simp [Signal.presence, same]
      simp [deletedWithDomain, said, Finmap.lookup_erase_ne (Ne.symm same)]
  | created name item ttl present absent => simp [Signal.presence]
  | deleted name item old found =>
    have said : presences d [.rrsetPostDelete name item] = [] := by
      simp [Signal.presence]
    simp [said]
  | modified name item old new signal found said unsaid about => simp [unsaid]
  | nothing => rfl

/-- Every domain name passed its field checks. -/
def Named (unicode : Unicode) (db : Database) : Prop :=
  ∀ name ∈ db, validateDomainName unicode name = true

private theorem Effect.named {db next : Database} {sent : List Signal}
    (effect : Effect unicode cascade db next sent) (named : Named unicode db) :
    Named unicode next := by
  have keep {name : Text} {item : Item} {rrset : Option RRset} :
      Named unicode (put db name item rrset) := fun d member => by
    have := Finmap.lookup_isSome.mpr member
    rw [lookup_put_isSome] at this
    exact named d (Finmap.lookup_isSome.mp this)
  cases effect with
  | domainCreated name absent clean =>
    intro d member
    rcases (Finmap.mem_insert).mp member with rfl | old
    · simp only [cleanDomain, Bool.and_eq_true] at clean
      exact clean.1
    · exact named d old
  | domainSaved name present => exact named
  | domainDeleted name rrsets found => exact fun d member => named d (Finmap.mem_erase.mp member).2
  | created name item ttl present absent => exact keep
  | deleted name item old found => exact keep
  | modified name item old new signal found said unsaid about => exact keep
  | nothing => exact named

private theorem Effect.spoken {db next : Database} {sent : List Signal}
    (effect : Effect unicode cascade db next sent) (named : Named unicode db) :
    ∀ signal ∈ sent, validateDomainName unicode signal.domainName = true := by
  have stored {name : Text} (present : (db.lookup name).isSome) :
      validateDomainName unicode name = true := named name (Finmap.lookup_isSome.mp present)
  cases effect with
  | domainCreated name absent clean =>
    simp only [cleanDomain, Bool.and_eq_true] at clean
    simpa [Signal.domainName] using clean.1
  | domainSaved name present => simpa [Signal.domainName] using stored present
  | domainDeleted name rrsets found =>
    have valid : validateDomainName unicode name = true := stored (by simp [found])
    intro signal member
    simp only [deletedWithDomain, List.mem_append, List.mem_map, List.mem_singleton] at member
    rcases member with (⟨row, -, rfl⟩ | ⟨item, -, rfl⟩) | rfl <;> exact valid
  | created name item ttl present absent => simpa [Signal.domainName] using stored present
  | deleted name item old found =>
    have valid := stored (lookup_of_value found)
    intro signal member
    simp only [List.mem_append, List.mem_map, List.mem_singleton] at member
    rcases member with ⟨row, -, rfl⟩ | rfl <;> exact valid
  | modified name item old new signal found said unsaid about =>
    simpa [about] using stored (lookup_of_value found)
  | nothing => simp

/-- What a whole body of writes preserves. -/
structure Told (unicode : Unicode) (start : Database) (signals : List Signal) (db : Database) :
    Prop where
  life (d : Text) (i : Item) :
    Life RRset.blank (value start d i) (events d i signals) (value db d i)
  presence (d : Text) :
    (presences d signals).foldl Flip.record Flip.clean
      = Flip.between (start.lookup d).isSome (db.lookup d).isSome
  named : Named unicode db
  spoken : ∀ signal ∈ signals, validateDomainName unicode signal.domainName = true

theorem told_start {start : Database} (named : Named unicode start) :
    Told unicode start [] start :=
  ⟨fun _ _ => .start, fun _ => (Flip.between_self _).symm, named,
    fun _ member => absurd member List.not_mem_nil⟩

theorem Told.step {start db next : Database} {signals sent : List Signal}
    (told : Told unicode start signals db) (effect : Effect unicode cascade db next sent) :
    Told unicode start (signals ++ sent) next where
  life d i := by
    simpa using effect.life d i (told.life d i)
  presence d := by
    rw [presences_append, List.foldl_append, told.presence d, effect.presence]
  named := effect.named told.named
  spoken signal member := by
    rcases List.mem_append.mp member with before | now
    · exact told.spoken signal before
    · exact effect.spoken told.named signal now

theorem told_of_performAll {start : Database} (operations : List Operation) :
    ∀ {db last : Database} {before signals : List Signal}, Told unicode start before db →
      performAll unicode cascade operations db = some (last, signals) →
      Told unicode start (before ++ signals) last := by
  induction operations with
  | nil =>
    intro db last before signals told done
    simp only [performAll, Option.some.injEq, Prod.mk.injEq] at done
    obtain ⟨rfl, rfl⟩ := done
    simpa using told
  | cons operation rest ih =>
    intro db last before signals told done
    simp only [performAll, Option.bind_eq_bind, Option.bind_eq_some_iff, Option.pure_def,
      Option.some.injEq, Prod.exists, Prod.mk.injEq] at done
    obtain ⟨next, sent, first, last', later, others, rfl, rfl⟩ := done
    simpa using ih (told.step (effect_of_perform first)) others

end DesecStack.Changes.History
