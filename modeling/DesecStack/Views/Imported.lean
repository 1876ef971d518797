/- module: DesecStack/Views/Imported
   layer: main results
   digest: What a new domain gets from a zone file: the RRsets that are imported, in their canonical
     form, the default NS RRset, and nothing else. -/

import DesecStack.Changes.Execution
import DesecStack.Library.Raising
import DesecStack.Records.TextRows
import DesecStack.Views.Stored

set_option autoImplicit false
set_option relaxedAutoImplicit false

namespace DesecStack.Views.Imported

open Library.PyText
open Library.Surrogates (Str)
open Library.Raising (exists_of_isOk)
open Library.Runs (bind_eq_ok_iff)
open Changes.Models
open Changes.Compute (apiDo nsItem sortedOrders)
open Changes.Execution (apiDo_createDomain)
open Records.Fields
open Records.Serializer
open Records.ListSerializer (shape keyOfRow)
open Records.Save
open Records.Rows (Entries)
open Records.Accepted
open Records.Applied
open Records.TextRows
open Records.BulkExact (bulkRequest storedItem isEmpty_validated)
open Enforced
open Stored (manageable_of_valid)
open Writes

/-- The names and types in a parsed zone file have no blanks around them. -/
def Trimmed (site : Site) : Prop :=
  ∀ name zonefile rrsets, site.parseZonefile name zonefile = .ok rrsets →
    ∀ rrset ∈ rrsets, strip rrset.type = rrset.type ∧ strip rrset.subname = rrset.subname

def itemOf (rrset : ZoneRRset) : Item := (rrset.type, rrset.subname)

/-- The TTL in a zone file, moved into the range that is allowed. -/
def importedTtl (site : Site) (rrset : ZoneRRset) : Nat :=
  max site.minimumTtlDefault (min maximumTtl.toNat rrset.ttl)

section Row

variable {minimumTtl : Nat} {rrset : ZoneRRset}

/-- The fields of a row for the serializer. -/
def fieldsOf (minimumTtl : Nat) (rrset : ZoneRRset) : Entries :=
  [(typeKey, .str rrset.type), (ttlKey, .int (max minimumTtl (min maximumTtl rrset.ttl))),
    (subnameKey, .str rrset.subname), (recordsKey, .list (rrset.records.map .str))]

private theorem gives_fieldsOf (minimumTtl : Nat) (rrset : ZoneRRset) :
    Gives (fieldsOf minimumTtl rrset) (itemOf rrset)
      (max minimumTtl (min maximumTtl.toNat rrset.ttl)) rrset.records := by
  refine ⟨rfl, rfl, ?_, rfl⟩
  have same : (max minimumTtl (min maximumTtl rrset.ttl) : Int) =
      ((max minimumTtl (min maximumTtl.toNat rrset.ttl) : Nat) : Int) := by
    have maximum : maximumTtl = (maximumTtl.toNat : Int) := rfl
    omega
  rw [← same]
  rfl

private theorem shape_zoneRow (minimumTtl : Nat) (rrset : ZoneRRset) :
    shape (zoneRow minimumTtl rrset) = .ok (fieldsOf minimumTtl rrset) := rfl

private theorem entries_zone (minimumTtl : Nat) (rrsets : List ZoneRRset) :
    entries (rrsets.map (zoneRow minimumTtl)) = rrsets.map (fieldsOf minimumTtl) := by
  rw [entries, List.filterMap_map]
  exact congrFun (@List.filterMap_eq_map _ _ (fieldsOf minimumTtl)) rrsets

end Row

section Creation

variable {site : Site} {caller : Caller} {db after : Database} {name : Text}

theorem steps_of_createDomain {zonefile : Option Text}
    (done : createDomain site caller db name zonefile = .ok after) :
    db.lookup name = none ∧ ∃ rrsets created sent session,
      zoneRRsets site name zonefile = .ok rrsets ∧
      perform site.unicode site.orders.cascade db (.createDomain name) = some (created, sent) ∧
      saveMany site name (contextOf site caller name ∅ site.minimumTtlDefault true none) .post ∅
        ⟨created, sent⟩ (.list (rrsets.map (zoneRow site.minimumTtlDefault))) = .ok session ∧
      apiDo site.unicode site.settings site.orders session.db (.createDomain name)
        = some after := by
  unfold createDomain at done
  split at done
  · cases done
  · split at done
    · cases done
    · simp only [bind_eq_ok_iff] at done
      obtain ⟨rrsets, parsed, done⟩ := done
      split at done
      · cases done
      · split at done
        · cases done
        · next created sent performed =>
          simp only [bind_eq_ok_iff] at done
          obtain ⟨session, many, done⟩ := done
          split at done
          · cases done
          · next last applied =>
            split at done
            · obtain rfl := Except.ok.inj done
              refine ⟨?_, rrsets, created, sent, session, parsed, performed, many, applied⟩
              simp only [perform, Option.ite_none_right_eq_some] at performed
              exact performed.1.1
            · cases done

/-- Imported: the canonical forms of the records, with a TTL that is allowed. -/
def Kept (site : Site) (name : Text) (rrset : ZoneRRset) (after : Option RRset) : Prop :=
  ∃ forms records, List.Forall₂ (fun content form =>
      site.dns.canonical (strip content) rrset.type = .ok form) rrset.records forms ∧
    cleanRecords (envOf site name) (itemOf rrset) forms = .ok records ∧
    after = some ⟨importedTtl site rrset, records⟩

private theorem created_of_perform {unicode : Unicode} {cascade : Cascade} {created : Database}
    {sent : List Signal} (performed : perform unicode cascade db (.createDomain name) =
      some (created, sent)) :
    created.lookup name = some ∅ ∧ ∀ d, d ≠ name → created.lookup d = db.lookup d := by
  simp only [perform, Option.ite_none_right_eq_some, Option.some.injEq, Prod.mk.injEq] at performed
  obtain ⟨-, rfl, -⟩ := performed
  exact ⟨Finmap.lookup_insert _, fun d other => Finmap.lookup_insert_of_ne _ other⟩

/-- A new domain has the RRsets of its zone file that are imported and the default NS RRset, and no
other domain is changed. -/
theorem zonefile_imported {zonefile : Text} (trimmed : Trimmed site)
    (done : createDomain site caller db name (some zonefile) = .ok after) :
    ∃ rrsets, site.parseZonefile name zonefile = .ok rrsets ∧
      value after name nsItem = some
        ⟨site.settings.defaultNsTtl, site.settings.defaultNs.toFinset⟩ ∧
      (∀ rrset ∈ rrsets, isImported rrset = true →
        Kept site name rrset (value after name (itemOf rrset))) ∧
      (∀ item, value after name item ≠ none →
        item = nsItem ∨ ∃ rrset ∈ rrsets, isImported rrset = true ∧ itemOf rrset = item) ∧
      ∀ d item, d ≠ name → value after d item = value db d item := by
  obtain ⟨absent, imported, created, sent, session, parsed, performed, many, applied⟩ :=
    steps_of_createDomain done
  obtain ⟨rrsets, read, rfl⟩ : ∃ rrsets, site.parseZonefile name zonefile = .ok rrsets ∧
      rrsets.filter isImported = imported := by
    rw [zoneRRsets] at parsed
    split at parsed
    · cases parsed
    · next rrsets read => exact ⟨rrsets, read, Except.ok.inj parsed⟩
  obtain ⟨fresh, others⟩ := created_of_perform performed
  obtain ⟨nsAbsent, values, -, untouched⟩ := apiDo_createDomain applied
  obtain ⟨rows, isRows, valid, checked, saved⟩ := rows_of_saveMany many
  obtain rfl := Json.list.inj isRows
  obtain ⟨_, isRows, -, confined⟩ := spec_of_saveMany many
  obtain rfl := Json.list.inj isRows
  have blank (item : Item) : value created name item = none := by
    rw [value, fresh]
    rfl
  have stored {rrset : ZoneRRset} (member : rrset ∈ rrsets) :
      storedItem (fieldsOf site.minimumTtlDefault rrset) = itemOf rrset := by
    obtain ⟨type, subname⟩ := trimmed name zonefile rrsets read rrset member
    rw [(gives_fieldsOf _ rrset).storedItem_eq, itemOf, type, subname]
  refine ⟨rrsets, read, by rw [values, if_pos rfl], ?_, ?_, ?_⟩
  · intro rrset member isImported
    have inside : fieldsOf site.minimumTtlDefault rrset ∈
        entries ((rrsets.filter Writes.isImported).map (zoneRow site.minimumTtlDefault)) := by
      rw [entries_zone]
      exact List.mem_map_of_mem (List.mem_filter.mpr ⟨member, isImported⟩)
    have only : ∀ other ∈ entries ((rrsets.filter Writes.isImported).map
        (zoneRow site.minimumTtlDefault)),
        storedItem other = storedItem (fieldsOf site.minimumTtlDefault rrset) →
          other = fieldsOf site.minimumTtlDefault rrset := by
      intro other there same
      apply row_unique valid checked inside there
      rw [entries_zone] at there
      obtain ⟨second, inRows, rfl⟩ := List.mem_map.mp there
      rw [stored (List.mem_filter.mp inRows).1, stored member] at same
      exact congrArg (fun item : Item => (some (Str.text item.2), some (Str.text item.1))) same
    have agrees : Records.BulkExact.Agrees (envOf site name)
        (contextOf site caller name ∅ site.minimumTtlDefault true none) ⟨created, sent⟩ :=
      ⟨rfl, fresh⟩
    have outcome := outcome_of_save agrees (Finset.empty_subset _) valid checked saved inside
    have kept := keptAs_of_outcome (gives_fieldsOf _ rrset) (.inl (blank _)) rfl valid inside only
      outcome
    have filled : rrset.records ≠ [] := by
      have nonempty := (manageable_of_valid valid (List.mem_map_of_mem inside)).2 rfl
      rintro nothing
      have empty := isEmpty_validated rfl valid inside
      rw [(gives_fieldsOf _ rrset).isEmptyRow_iff.mpr nothing] at empty
      exact nonempty (of_decide_eq_true empty)
    rw [stored member, KeptAs, if_neg filled] at kept
    obtain ⟨forms, records, canonical, clean, there⟩ := kept
    refine ⟨forms, records, canonical, clean, ?_⟩
    have other : itemOf rrset ≠ nsItem := by
      intro apex
      have found : value session.db name nsItem = _ := apex ▸ there
      rw [nsAbsent] at found
      cases found
    rw [values, if_neg other]
    exact there
  · intro item something
    by_cases apex : item = nsItem
    · exact .inl apex
    · rw [values, if_neg apex] at something
      obtain ⟨-, -, row, inRows, fields, shaped, named⟩ := confined name item (by
        rw [blank]
        exact something)
      obtain ⟨own, member, rfl⟩ := List.mem_map.mp inRows
      obtain rfl := Except.ok.inj ((shape_zoneRow _ own).symm.trans shaped)
      obtain ⟨inside, isImported⟩ := List.mem_filter.mp member
      refine .inr ⟨own, inside, isImported, ?_⟩
      rw [← stored inside, storedItem, named]
      rfl
  · intro d item other
    have kept : value session.db d item = value created d item := by
      by_contra changed
      exact other (confined d item changed).1
    have same : value after d item = value session.db d item := by
      rw [value, value, untouched d other]
    rw [same, kept, value, value, others d other]

end Creation

section Sample

private def dns₅ : Dns where
  validationTypes := {"A".toList, "TXT".toList, "NS".toList}
  canonical content _ := .ok content
  wire _ content := content
  nameTooLong _ _ := false

/-- A parsed zone file, with an NS RRset at its apex. -/
private def parsed₅ : List ZoneRRset :=
  [⟨[], "SOA".toList, 300, ["ns.old.test. admin.old.test. 1 2 3 4 5".toList]⟩,
    ⟨[], "NS".toList, 300, ["ns.old.test.".toList]⟩,
    ⟨"www".toList, "A".toList, 5, ["192.0.2.1".toList, "192.0.2.2".toList]⟩,
    ⟨"sub".toList, "NS".toList, 900000, ["ns.sub.test.".toList]⟩]

private def site₅ : Site where
  unicode := .plain
  dns := dns₅
  settings := ⟨["ns1.example.".toList], 3600, "catalog.internal.".toList, false, id⟩
  orders := sortedOrders
  contents := sortedOrders.names
  minimumTtl _ := 60
  minimumTtlDefault := 60
  isLocallyRegistrable _ := false
  blockedSubnet _ := false
  isValidName _ := true
  registerLps := true
  parseZonefile _ _ := .ok parsed₅
  leaves _ := true

private def caller₅ : Caller where
  token := ⟨1, 1, none, none, true, false, false, false⟩
  policies := []
  mfaEnabled := false
  domains := ∅
  limitDomains := some 15

private theorem trimmed₅ : Trimmed site₅ := by
  intro name zonefile rrsets read rrset member
  have same : parsed₅ = rrsets := Except.ok.inj read
  have each : ∀ rrset ∈ parsed₅,
      strip rrset.type = rrset.type ∧ strip rrset.subname = rrset.subname := by
    decide
  exact each rrset (same ▸ member)

theorem zonefile_imported_clamped : ∃ after rrsets,
    createDomain site₅ caller₅ ∅ "a.test".toList (some []) = .ok after ∧
    site₅.parseZonefile "a.test".toList [] = .ok rrsets ∧
      value after "a.test".toList nsItem = some ⟨3600, ["ns1.example.".toList].toFinset⟩ ∧
      (∀ rrset ∈ rrsets, isImported rrset = true →
        Kept site₅ "a.test".toList rrset (value after "a.test".toList (itemOf rrset))) ∧
      (∀ item, value after "a.test".toList item ≠ none →
        item = nsItem ∨ ∃ rrset ∈ rrsets, isImported rrset = true ∧ itemOf rrset = item) ∧
      ∀ d item, d ≠ "a.test".toList → value after d item = value ∅ d item := by
  have good : (createDomain site₅ caller₅ ∅ "a.test".toList (some [])).isOk = true := by
    decide +kernel
  obtain ⟨after, done⟩ := exists_of_isOk good
  obtain ⟨rrsets, holds⟩ := zonefile_imported trimmed₅ done
  exact ⟨after, rrsets, done, holds⟩

end Sample

end DesecStack.Views.Imported
