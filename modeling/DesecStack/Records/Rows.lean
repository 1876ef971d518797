/- module: DesecStack/Records/Rows
   layer: lemmas
   digest: What the index of a list of rows contains, and what its checks amount to. -/

import DesecStack.Library.Runs
import DesecStack.Records.ListSerializer

set_option autoImplicit false
set_option relaxedAutoImplicit false

namespace DesecStack.Records.Rows

open Library.PyText
open Library.Surrogates
open Library.Runs (mapM_isSome mapM_eq_some_iff exists_of_forall₂_left)
open Changes.Models (RRset Item RRsets cname)
open Fields Serializer ListSerializer

abbrev Entries := List (Text × Json)

/-- The row at a position, where its JSON types allow a look at its key. -/
def RowAt (rows : List Json) (position : Nat) (data : Entries) : Prop :=
  ∃ row, rows[position]? = some row ∧ shape row = .ok data

theorem mem_numbered {rows : List Json} {row : Nat × Json} :
    row ∈ numbered rows ↔ rows[row.1]? = some row.2 := by
  obtain ⟨position, value⟩ := row
  simp only [numbered, List.mem_map, Prod.exists, Prod.swap_prod_mk, Prod.mk.injEq]
  constructor
  · rintro ⟨v, n, member, rfl, rfl⟩
    exact List.mem_zipIdx_iff_getElem?.mp member
  · intro found
    exact ⟨value, position, List.mem_zipIdx_iff_getElem?.mpr found, rfl, rfl⟩

theorem RowAt.unique {rows : List Json} {position : Nat} {data other : Entries}
    (one : RowAt rows position data) (two : RowAt rows position other) : data = other := by
  obtain ⟨row, found, shaped⟩ := one
  obtain ⟨row', found', shaped'⟩ := two
  obtain rfl := Option.some.inj (found.symm.trans found')
  exact Except.ok.inj (shaped.symm.trans shaped')

/-- What the index holds after some of the rows. -/
private def Indexed (rrsets : RRsets) (seen : List (Nat × Json)) (index : Index) : Prop :=
  ∀ s t p, (s, t, p) ∈ index ↔
    ∃ row ∈ seen, ∃ data, shape row.2 = .ok data ∧
      ((p = none ∧ (keyOfRow data).1 = s ∧ (s, t, p) ∈ stored rrsets s) ∨
        (p = some row.1 ∧ keyOfRow data = (s, t)))

private theorem fst_of_mem_stored {rrsets : RRsets} {s : Option Str} {entry : Entry}
    (member : entry ∈ stored rrsets s) : entry.1 = s ∧ entry.2.2 = none := by
  simp only [stored, Finset.mem_image] at member
  obtain ⟨item, -, rfl⟩ := member
  exact ⟨rfl, rfl⟩

private theorem indexed_step {rrsets : RRsets} {seen : List (Nat × Json)} {index : Index}
    (indexed : Indexed rrsets seen index) (row : Nat × Json) :
    Indexed rrsets (seen ++ [row]) (indexRow rrsets index row) := by
  intro s t p
  cases shaped : shape row.2 with
  | error errors =>
    simp only [indexRow, shaped, indexed s t p, List.mem_append, List.mem_singleton]
    constructor
    · rintro ⟨other, member, rest⟩
      exact ⟨other, Or.inl member, rest⟩
    · rintro ⟨other, member | rfl, data, ok, rest⟩
      · exact ⟨other, member, data, ok, rest⟩
      · simp [shaped] at ok
  | ok data =>
    simp only [indexRow, shaped, Finset.mem_insert, Prod.mk.injEq]
    have others : (∃ other ∈ seen ++ [row], ∃ d, shape other.2 = .ok d ∧
        ((p = none ∧ (keyOfRow d).1 = s ∧ (s, t, p) ∈ stored rrsets s) ∨
          (p = some other.1 ∧ keyOfRow d = (s, t)))) ↔
        (s, t, p) ∈ index ∨
          ((p = none ∧ (keyOfRow data).1 = s ∧ (s, t, p) ∈ stored rrsets s) ∨
            (p = some row.1 ∧ keyOfRow data = (s, t))) := by
      rw [indexed s t p]
      constructor
      · rintro ⟨other, member, d, ok, rest⟩
        rcases List.mem_append.mp member with member | member
        · exact Or.inl ⟨other, member, d, ok, rest⟩
        · obtain rfl := List.mem_singleton.mp member
          obtain rfl := Except.ok.inj (shaped.symm.trans ok)
          exact Or.inr rest
      · rintro (⟨other, member, rest⟩ | rest)
        · exact ⟨other, List.mem_append_left _ member, rest⟩
        · exact ⟨row, List.mem_append_right _ (List.mem_singleton_self row), data, shaped, rest⟩
    rw [others]
    have own : (s = (keyOfRow data).1 ∧ t = (keyOfRow data).2 ∧ p = some row.1) ↔
        (p = some row.1 ∧ keyOfRow data = (s, t)) := by
      rw [Prod.ext_iff]
      constructor
      · rintro ⟨rfl, rfl, rfl⟩
        exact ⟨rfl, rfl, rfl⟩
      · rintro ⟨rfl, hs, ht⟩
        exact ⟨hs.symm, ht.symm, rfl⟩
    rw [own]
    split
    case isTrue known =>
      -- the RRsets at this subname were indexed with an earlier row
      obtain ⟨⟨s', t', p'⟩, member, same⟩ := known
      obtain ⟨other, seenOther, d, ok, reason⟩ := (indexed s' t' p').mp member
      have first : (keyOfRow d).1 = (keyOfRow data).1 := by
        rcases reason with ⟨-, h, -⟩ | ⟨-, h⟩
        · exact h.trans same
        · rw [h]
          exact same
      have already : p = none ∧ (keyOfRow data).1 = s ∧ (s, t, p) ∈ stored rrsets s →
          (s, t, p) ∈ index := fun ⟨hp, hs, hstored⟩ =>
        (indexed s t p).mpr ⟨other, seenOther, d, ok, Or.inl ⟨hp, first.trans hs, hstored⟩⟩
      constructor
      · rintro (here | before)
        · exact Or.inr (Or.inr here)
        · exact Or.inl before
      · rintro (before | database | here)
        · exact Or.inr before
        · exact Or.inr (already database)
        · exact Or.inl here
    case isFalse =>
      rw [Finset.mem_union]
      have now : (s, t, p) ∈ stored rrsets (keyOfRow data).1 ↔
          p = none ∧ (keyOfRow data).1 = s ∧ (s, t, p) ∈ stored rrsets s := by
        constructor
        · intro member
          obtain ⟨hs, hp⟩ := fst_of_mem_stored member
          exact ⟨hp, hs.symm, by rwa [← hs] at member⟩
        · rintro ⟨-, rfl, member⟩
          exact member
      rw [now, or_comm, or_assoc]

private theorem indexed_run {rrsets : RRsets} (rest : List (Nat × Json)) :
    ∀ {seen : List (Nat × Json)} {index : Index}, Indexed rrsets seen index →
      Indexed rrsets (seen ++ rest) (rest.foldl (indexRow rrsets) index) := by
  induction rest with
  | nil =>
    intro seen index indexed
    simpa using indexed
  | cons row rest ih =>
    intro seen index indexed
    have step := ih (indexed_step indexed row)
    simpa using step

private theorem mem_indices {rrsets : RRsets} {rows : List Json} {s t : Option Str}
    {p : Option Nat} :
    (s, t, p) ∈ indices rrsets rows ↔
      (∃ position data, RowAt rows position data ∧ p = some position ∧ keyOfRow data = (s, t)) ∨
      (∃ position data, RowAt rows position data ∧ p = none ∧ (keyOfRow data).1 = s ∧
        (s, t, p) ∈ stored rrsets s) := by
  have whole : Indexed rrsets ([] ++ numbered rows) (indices rrsets rows) :=
    indexed_run (numbered rows) fun s t p => by simp
  rw [List.nil_append] at whole
  rw [whole s t p]
  constructor
  · rintro ⟨row, member, data, ok, ⟨hp, hs, hstored⟩ | ⟨hp, hkey⟩⟩
    · exact Or.inr ⟨row.1, data, ⟨row.2, mem_numbered.mp member, ok⟩, hp, hs, hstored⟩
    · exact Or.inl ⟨row.1, data, ⟨row.2, mem_numbered.mp member, ok⟩, hp, hkey⟩
  · rintro (⟨position, data, ⟨row, found, ok⟩, hp, hkey⟩ | ⟨position, data, ⟨row, found, ok⟩, rest⟩)
    · exact ⟨(position, row), mem_numbered.mpr found, data, ok, Or.inr ⟨hp, hkey⟩⟩
    · exact ⟨(position, row), mem_numbered.mpr found, data, ok, Or.inl rest⟩

private theorem mem_collapse_run (rest : List (Nat × Json)) :
    ∀ {collapsed : Index} {s t : Option Str} {p : Option Nat},
      (s, t, p) ∈ rest.foldl collapseRow collapsed ↔
        (s, t, p) ∈ collapsed ∧ ¬ ∃ row ∈ rest, ∃ data, shape row.2 = .ok data ∧
          isEmptyRow data = true ∧ keyOfRow data = (s, t) ∧ (p = none ∨ p = some row.1) := by
  induction rest with
  | nil => simp
  | cons row rest ih =>
    intro collapsed s t p
    rw [List.foldl_cons, ih]
    have step : (s, t, p) ∈ collapseRow collapsed row ↔ (s, t, p) ∈ collapsed ∧
        ¬ ∃ data, shape row.2 = .ok data ∧ isEmptyRow data = true ∧ keyOfRow data = (s, t) ∧
          (p = none ∨ p = some row.1) := by
      cases shaped : shape row.2 with
      | error errors => simp [collapseRow, shaped]
      | ok data =>
        cases empty : isEmptyRow data with
        | false => simp [collapseRow, shaped, empty]
        | true =>
          simp only [collapseRow, shaped, empty, if_true, Finset.mem_erase, ne_eq,
            Except.ok.injEq, exists_eq_left', true_and, Prod.ext_iff]
          grind
    rw [step]
    simp only [List.mem_cons, exists_eq_or_imp, not_or]
    tauto

private theorem mem_collapsedIndices {rrsets : RRsets} {rows : List Json} {s t : Option Str}
    {p : Option Nat} :
    (s, t, p) ∈ collapsedIndices rrsets rows ↔ (s, t, p) ∈ indices rrsets rows ∧
      ∀ position data, RowAt rows position data → isEmptyRow data = true →
        keyOfRow data = (s, t) → p ≠ none ∧ p ≠ some position := by
  rw [collapsedIndices, mem_collapse_run]
  refine and_congr_right fun _ => ?_
  constructor
  · rintro unemptied position data ⟨row, found, ok⟩ empty key
    refine ⟨fun hp => unemptied ?_, fun hp => unemptied ?_⟩
    · exact ⟨(position, row), mem_numbered.mpr found, data, ok, empty, key, Or.inl hp⟩
    · exact ⟨(position, row), mem_numbered.mpr found, data, ok, empty, key, Or.inr hp⟩
  · rintro kept ⟨row, member, data, ok, empty, key, hp⟩
    have := kept row.1 data ⟨row.2, mem_numbered.mp member, ok⟩ empty key
    tauto

/-- The key of a row with its strings read in some way: as they are, or trimmed. -/
def readKey (read : Str → Str) (data : Entries) : Key :=
  ((strOf data subnameKey).map read, (strOf data typeKey).map read)

@[simp] theorem readKey_id (data : Entries) : readKey id data = keyOfRow data := by
  simp [readKey, keyOfRow]

/-- Another row has the same key. -/
def Duplicate (read : Str → Str) (rows : List Json) (position : Nat) (data : Entries) : Prop :=
  ∃ other row, RowAt rows other row ∧ other ≠ position ∧ readKey read row = readKey read data

/-- After the list is applied an RRset has this key: a row asks for it, or it is stored and no
row empties it. -/
def Present (read : Str → Str) (rrsets : RRsets) (rows : List Json) (key : Key) : Prop :=
  (∃ position row, RowAt rows position row ∧ isEmptyRow row = false ∧ readKey read row = key) ∨
  ((∃ item ∈ rrsets.keys, key = (some (.text item.2), some (.text item.1))) ∧
    ∀ position row, RowAt rows position row → isEmptyRow row = true → readKey read row ≠ key)

/-- At the subname of a row there will be an RRset that its type excludes. -/
def Excluded (read : Str → Str) (rrsets : RRsets) (rows : List Json) (data : Entries) : Prop :=
  ∃ type : Str, ¬ (type = .text cname ↔ (readKey read data).2 = some (.text cname)) ∧
    Present read rrsets rows ((readKey read data).1, some type)

/-- A CNAME row has a row without type beside it. -/
def Nameless (rows : List Json) (data : Entries) : Prop :=
  (keyOfRow data).2 = some (.text cname) ∧ ∃ position row, RowAt rows position row ∧
    isEmptyRow row = false ∧ keyOfRow row = ((keyOfRow data).1, none)

private theorem typesByPositionString_eq_none_iff (conflicting : Index) :
    typesByPositionString conflicting = none ↔ ∃ entry ∈ conflicting, entry.2.1 = none := by
  have position (p : Option Nat) : positionString conflicting p = none ↔
      ∃ entry ∈ conflicting, entry.2.2 = p ∧ entry.2.1 = none := by
    have member : none ∈ typesAt conflicting p ↔
        ∃ entry ∈ conflicting, entry.2.2 = p ∧ entry.2.1 = none := by
      simp only [typesAt, Finset.mem_image, Finset.mem_filter, and_assoc]
    rw [← member]
    by_cases untyped : none ∈ typesAt conflicting p <;> simp [positionString, untyped]
  have listed (entry : Entry) (member : entry ∈ conflicting) : entry.2.2 ∈
      ((conflicting.biUnion fun entry => entry.2.2.toFinset).sort (· ≤ ·)).map some ++
        (if ∃ entry ∈ conflicting, entry.2.2 = none then [none] else []) := by
    rw [List.mem_append]
    cases at_p : entry.2.2 with
    | none =>
      refine Or.inr ?_
      rw [if_pos ⟨entry, member, at_p⟩]
      exact List.mem_singleton_self none
    | some n =>
      refine Or.inl (List.mem_map_of_mem ?_)
      rw [Finset.mem_sort, Finset.mem_biUnion]
      exact ⟨entry, member, by simp [at_p]⟩
  constructor
  · intro failed
    by_contra typed
    push Not at typed
    have all := mapM_isSome (f := positionString conflicting)
      (l := ((conflicting.biUnion fun entry => entry.2.2.toFinset).sort (· ≤ ·)).map some ++
        (if ∃ entry ∈ conflicting, entry.2.2 = none then [none] else []))
      fun p _ => Option.isSome_iff_ne_none.mpr fun h => by
        obtain ⟨entry, member, -, untyped⟩ := (position p).mp h
        exact typed entry member untyped
    obtain ⟨strings, computed⟩ := Option.isSome_iff_exists.mp all
    simp [typesByPositionString, computed] at failed
  · rintro ⟨entry, member, untyped⟩
    by_contra joined
    obtain ⟨text, computed⟩ := Option.ne_none_iff_exists'.mp joined
    simp only [typesByPositionString, Option.bind_eq_bind, Option.bind_eq_some_iff] at computed
    obtain ⟨strings, mapped, -⟩ := computed
    obtain ⟨string, -, one⟩ := exists_of_forall₂_left (mapM_eq_some_iff.mp mapped)
      (listed entry member)
    rw [(position _).mpr ⟨entry, member, rfl, untyped⟩] at one
    exact absurd one (by simp)

private theorem duplicateMessage_ne (others : Finset Nat) (types : Text) :
    duplicateMessage others ≠ exclusionMessage types := by
  intro same
  have first : (duplicateMessage others).head? = some 'S' := rfl
  have other : (exclusionMessage types).head? = some 'R' := rfl
  rw [same, other] at first
  exact absurd first (by decide)

section Checks

variable (rrsets : RRsets) {rows : List Json} {position : Nat} {data : Entries}
  (here : RowAt rows position data)
include here

private theorem mem_collapsed_iff_present (type : Option Str) :
    (∃ p, ((keyOfRow data).1, type, p) ∈ collapsedIndices rrsets rows) ↔
      Present id rrsets rows ((keyOfRow data).1, type) := by
  simp only [mem_collapsedIndices, mem_indices, Present, readKey_id]
  constructor
  · rintro ⟨p, ⟨j, row, rowAt, rfl, key⟩ | ⟨j, row, rowAt, rfl, -, inStore⟩, kept⟩
    · refine Or.inl ⟨j, row, rowAt, ?_, key⟩
      by_contra empty
      exact (kept j row rowAt (by simpa using empty) key).2 rfl
    · refine Or.inr ⟨?_, fun i other otherAt empty key => (kept i other otherAt empty key).1 rfl⟩
      simp only [stored, Finset.mem_image, Finset.mem_filter, Prod.mk.injEq] at inStore
      obtain ⟨item, ⟨member, subname⟩, -, rfl, -⟩ := inStore
      exact ⟨item, member, by rw [subname]⟩
  · rintro (⟨j, row, rowAt, nonempty, key⟩ | ⟨⟨item, member, same⟩, kept⟩)
    · refine ⟨some j, Or.inl ⟨j, row, rowAt, rfl, key⟩, fun i other otherAt empty _ =>
        ⟨by simp, ?_⟩⟩
      rintro ⟨rfl⟩
      rw [rowAt.unique otherAt, empty] at nonempty
      exact absurd nonempty (by simp)
    · obtain ⟨subname, rfl⟩ := Prod.mk.inj same
      refine ⟨none, Or.inr ⟨position, data, here, rfl, rfl, ?_⟩, fun i other otherAt empty key =>
        absurd key (kept i other otherAt empty)⟩
      simp only [stored, Finset.mem_image, Finset.mem_filter]
      exact ⟨item, ⟨member, subname.symm⟩, rfl⟩

private theorem one_lt_dataIndices_iff :
    1 < (dataIndices (indices rrsets rows) (keyOfRow data)).card ↔
      Duplicate id rows position data := by
  have mem (i : Nat) : i ∈ dataIndices (indices rrsets rows) (keyOfRow data) ↔
      ∃ row, RowAt rows i row ∧ keyOfRow row = keyOfRow data := by
    simp only [dataIndices, Finset.mem_biUnion, Finset.mem_filter, Prod.exists,
      Option.mem_toFinset, Option.mem_def]
    constructor
    · rintro ⟨s, t, p, ⟨member, rfl, rfl⟩, rfl⟩
      rcases mem_indices.mp member with ⟨j, row, rowAt, same, key⟩ | ⟨j, row, rowAt, same, -⟩
      · obtain rfl := Option.some.inj same
        exact ⟨row, rowAt, key⟩
      · simp at same
    · rintro ⟨row, rowAt, key⟩
      exact ⟨_, _, some i, ⟨mem_indices.mpr (Or.inl ⟨i, row, rowAt, rfl, key⟩), rfl, rfl⟩, rfl⟩
  rw [Finset.one_lt_card]
  simp only [Duplicate, readKey_id, mem]
  constructor
  · rintro ⟨i, ⟨row, rowAt, key⟩, j, ⟨row', rowAt', key'⟩, differ⟩
    by_cases same : i = position
    · exact ⟨j, row', rowAt', fun h => differ (same.trans h.symm), key'⟩
    · exact ⟨i, row, rowAt, same, key⟩
  · rintro ⟨j, row, rowAt, differ, key⟩
    exact ⟨j, ⟨row, rowAt, key⟩, position, ⟨data, here, rfl⟩, differ⟩

private theorem conflicts_eq_empty_iff :
    conflicts (collapsedIndices rrsets rows) (keyOfRow data) = ∅ ↔
      ¬ Excluded id rrsets rows data ∧ ¬ Nameless rows data := by
  have nonempty : (∃ entry, entry ∈ conflicts (collapsedIndices rrsets rows) (keyOfRow data)) ↔
      ∃ type : Option Str, ¬ (type = some (.text cname) ↔ (keyOfRow data).2 = some (.text cname)) ∧
        Present id rrsets rows ((keyOfRow data).1, type) := by
    simp only [conflicts, Finset.mem_filter, Prod.exists]
    constructor
    · rintro ⟨s, type, p, member, rfl, differ⟩
      exact ⟨type, differ, (mem_collapsed_iff_present rrsets here type).mp ⟨p, member⟩⟩
    · rintro ⟨type, differ, present⟩
      obtain ⟨p, member⟩ := (mem_collapsed_iff_present rrsets here type).mpr present
      exact ⟨_, type, p, member, rfl, differ⟩
  have split : (∃ type : Option Str,
    ¬ (type = some (.text cname) ↔ (keyOfRow data).2 = some (.text cname)) ∧
        Present id rrsets rows ((keyOfRow data).1, type)) ↔
      Excluded id rrsets rows data ∨ Nameless rows data := by
    constructor
    · rintro ⟨_ | type, differ, present⟩
      · refine Or.inr ⟨by simpa using differ, ?_⟩
        rcases present with ⟨j, row, rowAt, isNonempty, key⟩ | ⟨⟨item, -, same⟩, -⟩
        · exact ⟨j, row, rowAt, isNonempty, by simpa using key⟩
        · simp at same
      · exact Or.inl ⟨type, by simpa using differ, by simpa using present⟩
    · rintro (⟨type, differ, present⟩ | ⟨isCname, j, row, rowAt, isNonempty, key⟩)
      · exact ⟨some type, by simpa using differ, by simpa using present⟩
      · exact ⟨none, by simp [isCname], Or.inl ⟨j, row, rowAt, isNonempty, by simpa using key⟩⟩
  rw [Finset.eq_empty_iff_forall_notMem, ← not_exists, nonempty, split, not_or]

private theorem untyped_conflict_iff :
    (∃ entry ∈ conflicts (collapsedIndices rrsets rows) (keyOfRow data), entry.2.1 = none) ↔
      Nameless rows data := by
  simp only [conflicts, Finset.mem_filter, Prod.exists]
  constructor
  · rintro ⟨s, type, p, ⟨member, rfl, differ⟩, rfl⟩
    refine ⟨by simpa using differ, ?_⟩
    rcases (mem_collapsed_iff_present rrsets here none).mp ⟨p, member⟩ with
      ⟨j, row, rowAt, isNonempty, key⟩ | ⟨⟨item, -, same⟩, -⟩
    · exact ⟨j, row, rowAt, isNonempty, by simpa using key⟩
    · simp at same
  · rintro ⟨isCname, j, row, rowAt, isNonempty, key⟩
    obtain ⟨p, member⟩ := (mem_collapsed_iff_present rrsets here none).mpr
      (Or.inl ⟨j, row, rowAt, isNonempty, by simpa using key⟩ :
        Present id rrsets rows ((keyOfRow data).1, none))
    exact ⟨_, none, p, ⟨member, rfl, by simp [isCname]⟩, rfl⟩

/-- The check of a row, in terms of the rows and the database alone. -/
theorem checkRow_ok_iff :
    checkRow (indices rrsets rows) (collapsedIndices rrsets rows) position data = .ok () ↔
      ¬ Duplicate id rows position data ∧
        (isEmptyRow data = true ∨ ¬ Excluded id rrsets rows data ∧ ¬ Nameless rows data) := by
  rw [← one_lt_dataIndices_iff rrsets here, ← conflicts_eq_empty_iff rrsets here]
  unfold checkRow
  by_cases twice : 1 < (dataIndices (indices rrsets rows) (keyOfRow data)).card
  · simp [twice, nonFieldError]
  · cases empty : isEmptyRow data with
    | true => simp [twice]
    | false =>
      by_cases none : conflicts (collapsedIndices rrsets rows) (keyOfRow data) = ∅
      · simp [twice, none]
      · simp only [twice, none, if_false, not_false_eq_true, true_and, or_self, iff_false,
          Bool.false_eq_true]
        split <;> simp [nonFieldError]

omit here in
theorem raised_of_checkRow {index collapsed : Index} {raised : Raised}
    (failed : checkRow index collapsed position data = .error raised) :
    raised = .typeError ∨ ∃ errors, raised = .invalid errors := by
  unfold checkRow at failed
  dsimp only at failed
  split at failed
  · exact Or.inr ⟨_, (Except.error.inj failed).symm⟩
  · split at failed
    · exact absurd failed (by simp)
    · split at failed
      · exact absurd failed (by simp)
      · split at failed
        · exact Or.inl (Except.error.inj failed).symm
        · exact Or.inr ⟨_, (Except.error.inj failed).symm⟩

theorem checkRow_typeError_iff :
    checkRow (indices rrsets rows) (collapsedIndices rrsets rows) position data
        = .error .typeError ↔
      ¬ Duplicate id rows position data ∧ isEmptyRow data = false ∧ Nameless rows data := by
  have excluded := conflicts_eq_empty_iff rrsets here
  rw [← one_lt_dataIndices_iff rrsets here]
  rw [← untyped_conflict_iff rrsets here, ← typesByPositionString_eq_none_iff] at excluded ⊢
  unfold checkRow
  by_cases twice : 1 < (dataIndices (indices rrsets rows) (keyOfRow data)).card
  · simp [twice, nonFieldError]
  · cases empty : isEmptyRow data with
    | true => simp [twice]
    | false =>
      by_cases none : conflicts (collapsedIndices rrsets rows) (keyOfRow data) = ∅
      · have typed := (excluded.mp none).2
        rw [none] at typed
        simp [twice, none, typed]
      · simp only [twice, none, if_false, not_false_eq_true, true_and, Bool.false_eq_true]
        cases typesByPositionString
          (conflicts (collapsedIndices rrsets rows) (keyOfRow data)) <;> simp [nonFieldError]

/-- A row is rejected for exclusivity when its raw key shows a conflict, and all types in it
are given. -/
theorem checkRow_exclusion_iff :
    (∃ types, checkRow (indices rrsets rows) (collapsedIndices rrsets rows) position data
        = nonFieldError (exclusionMessage types)) ↔
      ¬ Duplicate id rows position data ∧ isEmptyRow data = false ∧
        Excluded id rrsets rows data ∧ ¬ Nameless rows data := by
  have excluded := conflicts_eq_empty_iff rrsets here
  rw [← one_lt_dataIndices_iff rrsets here, ← untyped_conflict_iff rrsets here,
    ← typesByPositionString_eq_none_iff]
  rw [← untyped_conflict_iff rrsets here, ← typesByPositionString_eq_none_iff]
    at excluded
  unfold checkRow
  by_cases twice : 1 < (dataIndices (indices rrsets rows) (keyOfRow data)).card
  · simp [twice, nonFieldError, duplicateMessage_ne]
  · cases empty : isEmptyRow data with
    | true => simp [twice, nonFieldError]
    | false =>
      by_cases none : conflicts (collapsedIndices rrsets rows) (keyOfRow data) = ∅
      · have free := (excluded.mp none).1
        simp [twice, none, free, nonFieldError]
      · cases joined : typesByPositionString
            (conflicts (collapsedIndices rrsets rows) (keyOfRow data)) with
        | none => simp [twice, none, joined, nonFieldError]
        | some types =>
          have isExcluded : Excluded id rrsets rows data := by
            by_contra free
            exact none (excluded.mpr ⟨free, by simp [joined]⟩)
          simp [twice, none, joined, isExcluded, nonFieldError]

end Checks

end DesecStack.Records.Rows
