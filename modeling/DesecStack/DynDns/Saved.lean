/- module: DesecStack/DynDns/Saved
   layer: lemmas
   digest: What saving the rows of a dynDNS request leaves of the RRsets that they are about. -/

import DesecStack.Records.TextRows
import DesecStack.Views.Enforced

set_option autoImplicit false
set_option relaxedAutoImplicit false

namespace DesecStack.DynDns.Saved

open Library.PyText
open Library.Runs (bind_eq_ok_iff mapM_eq_ok_iff)
open Changes.Models
open Records.Fields
open Records.Serializer
open Records.ListSerializer (shape validateRow isEmptyRow)
open Records.Save
open Records.Rows (Entries readKey)
open Records.Validated
open Records.Accepted
open Records.Applied
open Records.TextRows
open Records.Values (Created Updated)
open Records.BulkExact (Method bulkRequest storedItem validRow_of_mem isEmpty_validated)
open Views.Enforced
open Views.Writes

/-- The fields of a row for the serializer. -/
def fieldsOf (row : Item × List Text) : Entries :=
  [(typeKey, .str row.1.1), (subnameKey, .str row.1.2), (ttlKey, .int 60),
    (recordsKey, .list (row.2.map .str))]

/-- A row about an address type, with a subname as it is stored. -/
def Regular (row : Item × List Text) : Prop :=
  (row.1.1 = "A".toList ∨ row.1.1 = "AAAA".toList) ∧ strip row.1.2 = row.1.2

/-- An RRset is deleted if there are no records for it, and has the canonical forms of the
records otherwise. -/
def SavedAs (env : Env) (row : Item × List Text) (after : Option RRset) : Prop :=
  KeptAs env row.1 60 row.2 after

section Row

variable {row : Item × List Text}

private theorem shape_dynDnsRow (row : Item × List Text) :
    shape (dynDnsRow row) = .ok (fieldsOf row) := rfl

private theorem gives_fieldsOf (row : Item × List Text) : Gives (fieldsOf row) row.1 60 row.2 :=
  ⟨rfl, rfl, rfl, rfl⟩

private theorem storedItem_fieldsOf (regular : Regular row) :
    storedItem (fieldsOf row) = row.1 := by
  obtain ⟨typed, trimmed⟩ := regular
  have type : strip row.1.1 = row.1.1 := by
    rcases typed with same | same <;> rw [same] <;> decide
  rw [(gives_fieldsOf row).storedItem_eq, trimmed, type]

private theorem entries_dynDns (rows : List (Item × List Text)) :
    entries (rows.map dynDnsRow) = rows.map fieldsOf := by
  rw [entries, List.filterMap_map]
  exact congrFun (@List.filterMap_eq_map _ _ fieldsOf) rows

end Row

section Rows

variable {site : Site} {caller : Caller} {db after : Database} {name : Text}
  {subnames : List Text} {rows : List (Item × List Text)}

theorem saved_of_dynDnsSave (regular : ∀ row ∈ rows, Regular row)
    (distinct : (rows.map Prod.fst).Nodup)
    (done : dynDnsSave site caller db name subnames rows = .ok after) :
    (∀ row ∈ rows, SavedAs (envOf site name) row (value after name row.1)) ∧
      ∀ d item, value after d item ≠ value db d item → d = name ∧ ∃ row ∈ rows, row.1 = item := by
  rw [dynDnsSave, bind_eq_ok_iff] at done
  obtain ⟨rrsets, found, done⟩ := done
  obtain ⟨session, saving, rfl⟩ := db_of_committed done
  obtain ⟨list, isList, valid, checked, saved⟩ := rows_of_saveMany saving
  obtain rfl := Json.list.inj isList
  have stored := lookup_of_domain found
  have agrees : Records.BulkExact.Agrees (envOf site name)
      (contextOf site caller name rrsets 60 false none) ⟨db, []⟩ := ⟨rfl, stored⟩
  have selectable : dynDnsQueryset rrsets subnames ⊆ rrsets.keys := Finset.filter_subset _ _
  constructor
  · intro row member
    have inside : fieldsOf row ∈ entries (rows.map dynDnsRow) := by
      rw [entries_dynDns]
      exact List.mem_map_of_mem member
    have outcome := outcome_of_save agrees selectable valid checked saved inside
    have only : ∀ other ∈ entries (rows.map dynDnsRow),
        storedItem other = storedItem (fieldsOf row) → other = fieldsOf row := by
      intro other there same
      rw [entries_dynDns] at there
      obtain ⟨second, inRows, rfl⟩ := List.mem_map.mp there
      rw [storedItem_fieldsOf (regular second inRows),
        storedItem_fieldsOf (regular row member)] at same
      rw [List.inj_on_of_nodup_map distinct inRows member same]
    have kept := keptAs_of_outcome (gives_fieldsOf row) (.inr (by decide)) rfl valid inside
      only outcome
    rwa [storedItem_fieldsOf (regular row member)] at kept
  · intro d item changed
    obtain ⟨_, same, -, confined⟩ := spec_of_saveMany saving
    obtain rfl := Json.list.inj same
    obtain ⟨here, -, row, inRows, fields, shaped, named⟩ := confined d item changed
    obtain ⟨own, member, rfl⟩ := List.mem_map.mp inRows
    obtain rfl := Except.ok.inj ((shape_dynDnsRow own).symm.trans shaped)
    refine ⟨here, own, member, ?_⟩
    rw [← storedItem_fieldsOf (regular own member), storedItem, named]
    rfl

end Rows

end DesecStack.DynDns.Saved
