/- module: DesecStack/Changes/Compute
   source: api/desecapi/pdns_change_tracker.py
   digest: The changes a tracker computes on leaving its context, and their execution. -/

import DesecStack.Changes.Tracker
import DesecStack.Changes.Pdns
import DesecStack.Library.Runs
import Mathlib.Data.Char
import Mathlib.Data.List.Lex
import Mathlib.Data.Prod.Lex

set_option autoImplicit false
set_option relaxedAutoImplicit false

namespace DesecStack.Changes.Compute

open Library.PyText (Text Dict Unicode)
open Library.SetOrder (VisitOrder)
open Library.Runs (mapM_isSome)
open Models Tracker Pdns

inductive PDNSChange where
  | createDomain (name : Text)
  | deleteDomain (name : Text)
  | createUpdateDeleteRRSets (name : Text) (pending : Pending)

/-- The orders in which the tracker meets its sets, and the cascades of the models. -/
structure Orders where
  names : VisitOrder Text
  items : VisitOrder Item
  cascade : Cascade

/-- The loops in the order of the texts. -/
def sortedOrders : Orders where
  names := .sorted id Function.injective_id
  items := .sorted (fun item => toLex item) toLex.injective
  cascade :=
    { rows := .sorted (fun row => toLex (toLex row.1, row.2)) fun row other same => by
        obtain ⟨item, content⟩ := Prod.mk.inj (toLex.injective same)
        exact Prod.ext (toLex.injective item) content
      items := .sorted (fun item => toLex item) toLex.injective }

def PDNSChange.domainName : PDNSChange → Text
  | .createDomain name | .deleteDomain name | .createUpdateDeleteRRSets name _ => name

def PDNSChange.axfrRequired : PDNSChange → Bool
  | .createDomain _ | .createUpdateDeleteRRSets _ _ => true
  | .deleteDomain _ => false

/-- Whether an RRset has any RR. -/
def recordsExist (db : Database) (name : Text) (item : Item) : Bool :=
  (value db name item).any fun rrset => !rrset.blank

/-- The first loop of `_compute_changes`: the sets of a deleted domain are dropped. -/
def discardChanges (t : PDNSChangeTracker) (name : Text) : PDNSChangeTracker :=
  { t with
    rrSetAdditions := t.rrSetAdditions.erase name
    rrSetModifications := t.rrSetModifications.erase name
    rrSetDeletions := t.rrSetDeletions.erase name }

/-- Additions without the RRsets that are empty. -/
def announce (db : Database) (name : Text) (p : Pending) : Pending :=
  { p with additions := p.additions.filter fun item => recordsExist db name item }

/-- The body of the second loop of `_compute_changes`; `none` is a failed assertion. -/
def changesOf (t : PDNSChangeTracker) (db : Database) (name : Text) : Option (List PDNSChange) :=
  let created := if name ∈ t.domainAdditions then [PDNSChange.createDomain name] else []
  let p := pending t name
  if Disjoint p.additions p.deletions ∧ Disjoint p.modifications p.deletions then
    let p := announce db name p
    if p.additions ∪ p.modifications ∪ p.deletions = ∅ then some created
    else some (created ++ [.createUpdateDeleteRRSets name p])
  else none

def discardDeleted (orders : Orders) (t : PDNSChangeTracker) : PDNSChangeTracker :=
  (orders.names.visit t.domainDeletions).foldl discardChanges t

/-- The domains of the second loop. -/
def changedNames (orders : Orders) (t : PDNSChangeTracker) : List Text :=
  orders.names.visit (t.rrSetAdditions.keys ∪ t.domainAdditions)

/-- `_compute_changes` -/
def computeChanges (orders : Orders) (t : PDNSChangeTracker) (db : Database) :
    Option (List PDNSChange) := do
  let kept := discardDeleted orders t
  let later ← (changedNames orders kept).mapM (changesOf kept db)
  pure ((orders.names.visit t.domainDeletions).map .deleteDomain ++ later.flatten)

section Assertions

variable {t : PDNSChangeTracker}

theorem pending_discardChanges (t : PDNSChangeTracker) (name d : Text) :
    pending (discardChanges t name) d = if d = name then ⟨∅, ∅, ∅⟩ else pending t d := by
  by_cases same : d = name
  · subst same
    simp [pending, discardChanges]
  · simp [pending, discardChanges, same, Finmap.lookup_erase_ne]

private theorem pending_discardDeleted (orders : Orders) (t : PDNSChangeTracker) (name : Text) :
    pending (discardDeleted orders t) name = ⟨∅, ∅, ∅⟩ ∨
      pending (discardDeleted orders t) name = pending t name := by
  rw [discardDeleted]
  generalize orders.names.visit t.domainDeletions = names
  induction names generalizing t with
  | nil => exact .inr rfl
  | cons first names ih =>
    rw [List.foldl_cons]
    rcases ih (discardChanges t first) with empty | kept
    · exact .inl empty
    · rw [kept, pending_discardChanges]
      split
      · exact .inl rfl
      · exact .inr rfl

theorem computeChanges_isSome_of_disjoint
    (additions : ∀ name, Disjoint (pending t name).additions (pending t name).deletions)
    (modifications : ∀ name, Disjoint (pending t name).modifications (pending t name).deletions)
    (orders : Orders) (db : Database) : (computeChanges orders t db).isSome := by
  have asserted (name : Text) : (changesOf (discardDeleted orders t) db name).isSome := by
    have disjoint : Disjoint (pending (discardDeleted orders t) name).additions
          (pending (discardDeleted orders t) name).deletions ∧
        Disjoint (pending (discardDeleted orders t) name).modifications
          (pending (discardDeleted orders t) name).deletions := by
      rcases pending_discardDeleted orders t name with empty | kept
      · rw [empty]
        exact ⟨Finset.disjoint_empty_right _, Finset.disjoint_empty_right _⟩
      · rw [kept]
        exact ⟨additions name, modifications name⟩
    simp only [changesOf, disjoint, and_self, if_true]
    split <;> rfl
  obtain ⟨later, computed⟩ := Option.isSome_iff_exists.mp
    (mapM_isSome fun name (_ : name ∈ changedNames orders (discardDeleted orders t)) =>
      asserted name)
  simp [computeChanges, computed]

end Assertions

/-- An entry that removes an RRset. -/
def removal (name : Text) (item : Item) : RRsetData :=
  ⟨constructName item.2 name, item.1, 1, ∅⟩

/-- An entry with the TTL and the RRs of an RRset; `none` is `RRset.DoesNotExist`. -/
def replacement (db : Database) (name : Text) (item : Item) : Option RRsetData :=
  (value db name item).map fun rrset =>
    ⟨constructName item.2 name, item.1, rrset.ttl, rrset.records⟩

/-- The data of `CreateUpdateDeleteRRSets.pdns_do`. -/
def rrsetData (orders : Orders) (db : Database) (name : Text) (p : Pending) :
    Option (List RRsetData) := do
  let replaced ← (orders.items.visit ((p.additions ∪ p.modifications) \ p.deletions)).mapM
    (replacement db name)
  pure ((orders.items.visit p.deletions).map (removal name) ++ replaced)

section Execution

variable (unicode : Unicode) (settings : Settings) (accepts : Accepts) (orders : Orders)

/-- `pdns_do` of each change. -/
def pdnsDo (db : Database) (servers : Servers) : PDNSChange → Option Servers
  | .createDomain name => do
      let servers ← send settings accepts (.createZoneLord name) servers
      let servers ← send settings accepts (.createZoneMaster name) servers
      updateCatalog settings accepts name false servers
  | .deleteDomain name => do
      let id ← pdnsId name
      let servers ← send settings accepts (.deleteZoneLord id) servers
      let servers ← send settings accepts (.deleteZoneMaster id) servers
      updateCatalog settings accepts name true servers
  | .createUpdateDeleteRRSets name p => do
      let data ← rrsetData orders db name p
      if data.isEmpty then some servers
      else
        let id ← pdnsId name
        send settings accepts (.updateZone id data) servers

/-- The default NS RRset of a new domain. -/
def nsItem : Item := (ns, [])

/-- `api_do` of each change. The signals of its writes reach nobody. -/
def apiDo (db : Database) : PDNSChange → Option Database
  | .createDomain name =>
      (performAll unicode orders.cascade
        [.createRRset name nsItem settings.defaultNsTtl,
          .bulkCreateRRs name nsItem settings.defaultNs] db).map Prod.fst
  | .deleteDomain _ | .createUpdateDeleteRRSets _ _ => some db

/-- `pch_do` of each change. -/
def pchDo (servers : Servers) : PDNSChange → Option Servers
  | .createDomain name => send settings accepts (.pchCreateDomain name) servers
  | .deleteDomain name => send settings accepts (.pchDeleteDomain name) servers
  | .createUpdateDeleteRRSets _ _ => some servers

/-- The database, the servers, and the names that need a transfer. -/
structure Progress where
  db : Database
  servers : Servers
  axfrRequired : Finset Text

/-- One round of the loop in `__exit__`; `none` is the `ValueError` it ends in. -/
def execute (progress : Progress) (change : PDNSChange) : Option Progress := do
  let servers ← pdnsDo settings accepts orders progress.db progress.servers change
  let db ← apiDo unicode settings orders progress.db change
  let servers ← (if settings.pchApi then pchDo settings accepts servers change else some servers)
  pure ⟨db, servers,
    if change.axfrRequired then insert change.domainName progress.axfrRequired
    else progress.axfrRequired⟩

def executeAll (changes : List PDNSChange) (db : Database) (servers : Servers) :
    Option Progress :=
  changes.foldlM (execute unicode settings accepts orders) ⟨db, servers, ∅⟩

/-- The transfers after the transaction; `none` is an exception, with the database committed. -/
def transfer (servers : Servers) (name : Text) : Option Servers := do
  let id ← pdnsId name
  send settings accepts (.axfrToMaster id) servers

end Execution

end DesecStack.Changes.Compute
