/- module: DesecStack/Records/Canonical
   source: api/desecapi/models/records.py
   digest: The canonical form of a record, and what a clean set of records looks like. -/

import DesecStack.Records.Save

set_option autoImplicit false
set_option relaxedAutoImplicit false

namespace DesecStack.Records.Canonical

open Library.PyText
open Changes.Models
open Serializer (Dns)
open Save

/-- How dnspython fails on a record; a malformed one comes with the arguments of the error. -/
inductive RdataError where
  | binascii
  | malformed (first : Text) (rest : List Text)
  | nameTooLong
  | needAbsoluteNameOrOrigin
  | value (message : Text)
  | other (message : Text)

/-- The two conversions of dnspython: a presentation format to wire format, and back. -/
structure Dnspython where
  toWire : (type content : Text) → Except RdataError (List UInt8)
  toText : (type : Text) → (wire : List UInt8) → Except RdataError Text

def wireMaximum : Nat := 64000

def RdataError.message (type : Text) : RdataError → Text
  | .binascii => "Cannot parse hexadecimal or base64 record contents".toList
  | .malformed first rest =>
      if "quote".toList <:+: first then
        "Data for ".toList ++ type ++ " records must be given using quotation marks.".toList
      else "Record content for type ".toList ++ type ++ " malformed: ".toList ++
        join ",".toList (first :: rest)
  | .nameTooLong => "Hostname must be no longer than 255 characters".toList
  | .needAbsoluteNameOrOrigin =>
      "Hostname must be fully qualified (i.e., end in a dot: \"example.com.\")".toList
  | .value message => "Cannot parse record contents: ".toList ++ message
  | .other message => message

def wireTooLong (length : Nat) : Text :=
  "Ensure this value has no more than 64000 byte in wire format (it has ".toList ++ ofInt length ++
    ").".toList

/-- `canonical_presentation_format` -/
def canonicalPresentationFormat (dnspython : Dnspython) (content type : Text) :
    Except Text Text :=
  match dnspython.toWire type content with
  | .error raised => .error (raised.message type)
  | .ok wire =>
      if wireMaximum < wire.length then .error (wireTooLong wire.length)
      else match dnspython.toText type wire with
        | .error raised => .error (raised.message type)
        | .ok text => .ok text

/-- The wire format of a record is short enough. -/
def ShortWire (dnspython : Dnspython) (type content : Text) : Prop :=
  ∃ wire, dnspython.toWire type content = .ok wire ∧ wire.length ≤ wireMaximum

theorem shortWire_of_canonical {dnspython : Dnspython} {content type text : Text}
    (done : canonicalPresentationFormat dnspython content type = .ok text) :
    ShortWire dnspython type content := by
  unfold canonicalPresentationFormat at done
  split at done
  · exact absurd done (by simp)
  · next wire converted =>
    split at done
    · exact absurd done (by simp)
    · next short => exact ⟨wire, converted, Nat.le_of_not_lt short⟩

section Clean

variable {env : Env} {item : Item}

private theorem cleanRecord_fine {state : List Text × Finset Text} {record : Text}
    (fine : (cleanRecord env item state record).1 = []) :
    state.1 = [] ∧ ∃ canonical, env.dns.canonical record item.1 = .ok canonical ∧
      canonical ∉ state.2 ∧ (cleanRecord env item state record).2 = insert canonical state.2 := by
  unfold cleanRecord at fine ⊢
  split at fine
  · simp at fine
  · next canonical converted =>
    split at fine
    · simp at fine
    · next fresh => exact ⟨fine, canonical, converted, fresh, by simp [fresh]⟩

private theorem cleanRecords_loop {records : List Text} :
    ∀ {state : List Text × Finset Text},
      (records.foldl (cleanRecord env item) state).1 = [] →
      state.1 = [] ∧
        (records.foldl (cleanRecord env item) state).2.card = state.2.card + records.length ∧
        ∀ content ∈ (records.foldl (cleanRecord env item) state).2, content ∈ state.2 ∨
          ∃ record ∈ records, env.dns.canonical record item.1 = .ok content := by
  induction records with
  | nil =>
    intro state fine
    exact ⟨fine, rfl, fun content member => Or.inl member⟩
  | cons record rest ih =>
    intro state fine
    rw [List.foldl_cons] at fine ⊢
    obtain ⟨between, count, origin⟩ := ih fine
    obtain ⟨before, canonical, converted, fresh, added⟩ := cleanRecord_fine between
    refine ⟨before, ?_, fun content member => ?_⟩
    · rw [count, added, Finset.card_insert_of_notMem fresh, List.length_cons]
      omega
    · rcases origin content member with known | ⟨other, there, form⟩
      · rw [added, Finset.mem_insert] at known
        rcases known with rfl | known
        · exact Or.inr ⟨record, List.mem_cons_self .., converted⟩
        · exact Or.inl known
      · exact Or.inr ⟨other, List.mem_cons_of_mem _ there, form⟩

/-- What `clean_records` ensures. -/
structure Cleaned (env : Env) (item : Item) (records : List Text) (new : Finset Text) : Prop where
  count : new.card = records.length
  canonical (content : Text) (member : content ∈ new) :
    ∃ record ∈ records, env.dns.canonical record item.1 = .ok content
  single (singleton : item.1 = cname ∨ item.1 = dname) : records.length ≤ 1
  belowApex (below : item.1 = cname ∨ item.1 = ds) : item.2 ≠ []
  atApex (apex : item.1 = dnskey) : item.2 = []

theorem cleaned_of_cleanRecords {records : List Text} {new : Finset Text}
    (done : cleanRecords env item records = .ok new) : Cleaned env item records new := by
  unfold cleanRecords at done
  split at done
  · next canonical looped =>
    obtain rfl := Except.ok.inj done
    have fine : (records.foldl (cleanRecord env item) (setErrors item records.length, ∅)).1
      = [] := by
      rw [looped]
    obtain ⟨noErrors, count, origin⟩ := cleanRecords_loop fine
    simp only [setErrors, List.append_eq_nil_iff, ite_eq_right_iff, List.cons_ne_nil, imp_false,
      not_and, Nat.not_lt, not_not] at noErrors
    obtain ⟨⟨single, below⟩, apex⟩ := noErrors
    rw [looped] at count origin
    refine ⟨by simpa using count, fun content member => ?_, single, below, apex⟩
    exact (origin content member).resolve_left (Finset.notMem_empty content)
  · exact absurd done (by simp)

/-- The canonical forms of the records that have one. -/
def canonicalForms (env : Env) (item : Item) (records : List Text) : Finset Text :=
  (records.filterMap fun record => (env.dns.canonical record item.1).toOption).toFinset

theorem mem_canonicalForms {records : List Text} {content : Text} :
    content ∈ canonicalForms env item records ↔
      ∃ record ∈ records, env.dns.canonical record item.1 = .ok content := by
  simp only [canonicalForms, List.mem_toFinset, List.mem_filterMap]
  apply exists_congr
  intro record
  cases env.dns.canonical record item.1 <;> simp [Except.toOption]

private theorem forms_of_loop {records : List Text} :
    ∀ {state : List Text × Finset Text},
      (records.foldl (cleanRecord env item) state).1 = [] →
      ∀ content, (content ∈ state.2 ∨
          ∃ record ∈ records, env.dns.canonical record item.1 = .ok content) →
        content ∈ (records.foldl (cleanRecord env item) state).2 := by
  induction records with
  | nil =>
    intro state _ content known
    simpa using known
  | cons record rest ih =>
    intro state fine content known
    rw [List.foldl_cons] at fine ⊢
    have between := (cleanRecords_loop fine).1
    obtain ⟨-, canonical, converted, -, added⟩ := cleanRecord_fine between
    apply ih fine
    rw [added, Finset.mem_insert]
    rcases known with known | ⟨other, there, form⟩
    · exact Or.inl (Or.inr known)
    · rcases List.mem_cons.mp there with rfl | later
      · exact Or.inl (Or.inl (Except.ok.inj (form.symm.trans converted)))
      · exact Or.inr ⟨other, later, form⟩

theorem forms_of_cleanRecords {records : List Text} {new : Finset Text}
    (done : cleanRecords env item records = .ok new) : new = canonicalForms env item records := by
  have cleaned := cleaned_of_cleanRecords done
  unfold cleanRecords at done
  split at done
  · next canonical looped =>
    obtain rfl := Except.ok.inj done
    have fine : (records.foldl (cleanRecord env item) (setErrors item records.length, ∅)).1
      = [] := by
      rw [looped]
    ext content
    rw [mem_canonicalForms]
    constructor
    · exact cleaned.canonical content
    · intro form
      have inside := forms_of_loop fine content (Or.inr form)
      rwa [looped] at inside
  · exact absurd done (by simp)

end Clean

end DesecStack.Records.Canonical
