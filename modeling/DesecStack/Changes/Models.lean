/- module: DesecStack/Changes/Models
   source: api/desecapi/models/domains.py, api/desecapi/models/records.py
   digest: Domains with their RRsets and RRs, the writes the models allow, and the signals sent. -/

import DesecStack.Library.Journal
import DesecStack.Library.SetOrder
import DesecStack.Names.Validators
import Mathlib.Data.Finset.Union

set_option autoImplicit false
set_option relaxedAutoImplicit false

namespace DesecStack.Changes.Models

open Library.PyText (Text Dict Unicode)
open Library.SetOrder (VisitOrder)
open Library.Journal (Event Life)
open Names.Validators (validateDomainName validateSubname validateType)

/-- An RRset row with the contents of its RR rows, which are unique within the set. -/
structure RRset where
  ttl : Nat
  records : Finset Text
  deriving DecidableEq

/-- The type and subname of an RRset. -/
abbrev Item := Text × Text

abbrev RRsets := Dict Item RRset

/-- The domains by name; names are unique, and so are types and subnames within a domain. -/
abbrev Database := Dict Text RRsets

def RRset.blank (rrset : RRset) : Bool := rrset.records = ∅

def value (db : Database) (name : Text) (item : Item) : Option RRset :=
  (db.lookup name).bind fun rrsets => rrsets.lookup item

def put (db : Database) (name : Text) (item : Item) (rrset : Option RRset) : Database :=
  match db.lookup name, rrset with
  | none, _ => db
  | some rrsets, some rrset => db.insert name (rrsets.insert item rrset)
  | some rrsets, none => db.insert name (rrsets.erase item)

def cname : Text := "CNAME".toList

/-- The constraint `cname_exclusivity`, for one more RRset of a domain. -/
def cnameExclusivity (rrsets : RRsets) (item : Item) : Prop :=
  ∀ other ∈ rrsets.keys, other.2 = item.2 → (other.1 = cname ↔ item.1 = cname)

instance (rrsets : RRsets) (item : Item) : Decidable (cnameExclusivity rrsets item) :=
  inferInstanceAs (Decidable (∀ other ∈ rrsets.keys, _))

def nameMaxLength : Nat := 191

def subnameMaxLength : Nat := 178

def typeMaxLength : Nat := 10

def ttlMax : Nat := 2147483647

/-- `RR_SET_TYPES_AUTOMATIC` -/
def typesAutomatic : List Text :=
  ["KEY", "NSEC", "NSEC3", "OPT", "RRSIG", "NSEC3PARAM", "SOA"].map String.toList

/-- The field checks of `Domain.full_clean`. -/
def cleanDomain (unicode : Unicode) (name : Text) : Bool :=
  validateDomainName unicode name && name.length ≤ nameMaxLength

/-- The field checks of `RRset.full_clean`; only the subname may be empty. -/
def cleanRRset (unicode : Unicode) (item : Item) (ttl : Nat) : Bool :=
  validateType unicode item.1 && item.1.length ≤ typeMaxLength &&
    (item.2 == [] || validateSubname unicode item.2) && item.2.length ≤ subnameMaxLength &&
    ttl ≤ ttlMax

inductive Operation where
  | createDomain (name : Text)
  | saveDomain (name : Text)
  | deleteDomain (name : Text)
  | createRRset (name : Text) (item : Item) (ttl : Nat)
  | saveRRset (name : Text) (item : Item) (ttl : Nat)
  | deleteRRset (name : Text) (item : Item)
  | createRR (name : Text) (item : Item) (content : Text)
  | saveRR (name : Text) (item : Item) (old new : Text)
  | deleteRR (name : Text) (item : Item) (content : Text)
  | bulkCreateRRs (name : Text) (item : Item) (contents : List Text)
  deriving DecidableEq

/-- A `post_save` or `post_delete` signal, with the names its receivers read off the instance. -/
inductive Signal where
  | rrPostSave (name : Text) (item : Item) (created : Bool)
  | rrPostDelete (name : Text) (item : Item)
  | rrsetPostSave (name : Text) (item : Item) (created : Bool)
  | rrsetPostDelete (name : Text) (item : Item)
  | domainPostSave (name : Text) (created : Bool)
  | domainPostDelete (name : Text)
  deriving DecidableEq

/-- The orders in which a cascade meets RR rows and RRset rows. -/
structure Cascade where
  rows : VisitOrder (Item × Text)
  items : VisitOrder Item

/-- The RR rows of a domain. -/
def rows (rrsets : RRsets) : Finset (Item × Text) :=
  rrsets.keys.biUnion fun item =>
    ((rrsets.lookup item).elim ∅ RRset.records).image fun content => (item, content)

/-- Deleting a domain deletes its RRs first, then its RRsets. -/
def deletedWithDomain (cascade : Cascade) (name : Text) (rrsets : RRsets) : List Signal :=
  (cascade.rows.visit (rows rrsets)).map (fun row => .rrPostDelete name row.1) ++
    (cascade.items.visit rrsets.keys).map (fun item => .rrsetPostDelete name item) ++
    [.domainPostDelete name]

/-- One write through the models, with the signals it sends. `none` is an error: a row that
must not exist or must exist, a field check, or a constraint. -/
def perform (unicode : Unicode) (cascade : Cascade) (db : Database) :
    Operation → Option (Database × List Signal)
  | .createDomain name =>
      if db.lookup name = none ∧ cleanDomain unicode name = true then
        some (db.insert name ∅, [.domainPostSave name true])
      else none
  | .saveDomain name => (db.lookup name).map fun _ => (db, [.domainPostSave name false])
  | .deleteDomain name =>
      (db.lookup name).map fun rrsets => (db.erase name, deletedWithDomain cascade name rrsets)
  | .createRRset name item ttl =>
      (db.lookup name).bind fun rrsets =>
        if rrsets.lookup item = none ∧ cnameExclusivity rrsets item ∧
            cleanRRset unicode item ttl = true then
          some (put db name item (some ⟨ttl, ∅⟩), [.rrsetPostSave name item true])
        else none
  | .saveRRset name item ttl =>
      (value db name item).bind fun rrset =>
        if cleanRRset unicode item ttl = true then
          some (put db name item (some { rrset with ttl }), [.rrsetPostSave name item false])
        else none
  | .deleteRRset name item =>
      (value db name item).map fun rrset =>
        (put db name item none,
          (cascade.rows.visit (rrset.records.image fun content => (item, content))).map
            (fun row => .rrPostDelete name row.1) ++ [.rrsetPostDelete name item])
  | .createRR name item content =>
      (value db name item).bind fun rrset =>
        if content ∉ rrset.records then
          some (put db name item (some { rrset with records := insert content rrset.records }),
            [.rrPostSave name item true])
        else none
  | .saveRR name item old new =>
      (value db name item).bind fun rrset =>
        if old ∈ rrset.records ∧ new ∉ rrset.records.erase old then
          some (put db name item
              (some { rrset with records := insert new (rrset.records.erase old) }),
            [.rrPostSave name item false])
        else none
  | .deleteRR name item content =>
      (value db name item).bind fun rrset =>
        if content ∈ rrset.records then
          some (put db name item (some { rrset with records := rrset.records.erase content }),
            [.rrPostDelete name item])
        else none
  | .bulkCreateRRs name item contents =>
      (value db name item).bind fun rrset =>
        if contents = [] then some (db, [])
        else if contents.Nodup ∧ Disjoint contents.toFinset rrset.records then
          some (put db name item
              (some { rrset with records := rrset.records ∪ contents.toFinset }),
            [.rrsetPostSave name item false])
        else none

/-- A body of writes, one after the other, with all signals in order. -/
def performAll (unicode : Unicode) (cascade : Cascade) :
    List Operation → Database → Option (Database × List Signal)
  | [], db => some (db, [])
  | operation :: rest, db => do
      let (next, sent) ← perform unicode cascade db operation
      let (last, later) ← performAll unicode cascade rest next
      pure (last, sent ++ later)

/-- The domain a signal is about. -/
def Signal.domainName : Signal → Text
  | .rrPostSave name _ _ | .rrPostDelete name _ | .rrsetPostSave name _ _
  | .rrsetPostDelete name _ | .domainPostSave name _ | .domainPostDelete name => name

/-- What a signal says about one RRset. -/
def Signal.event (name : Text) (item : Item) : Signal → Option Event
  | .rrPostSave n i _ => if n = name ∧ i = item then some .modified else none
  | .rrPostDelete n i => if n = name ∧ i = item then some .modified else none
  | .rrsetPostSave n i created =>
      if n = name ∧ i = item then some (if created then .created else .modified) else none
  | .rrsetPostDelete n i => if n = name ∧ i = item then some .deleted else none
  | .domainPostSave _ _ => none
  | .domainPostDelete _ => none

/-- What a signal says about the existence of one domain. -/
def Signal.presence (name : Text) : Signal → Option Bool
  | .domainPostSave n created => if n = name ∧ created then some true else none
  | .domainPostDelete n => if n = name then some false else none
  | .rrPostSave _ _ _ | .rrPostDelete _ _ | .rrsetPostSave _ _ _ | .rrsetPostDelete _ _ => none

def events (name : Text) (item : Item) (signals : List Signal) : List Event :=
  signals.filterMap (Signal.event name item)

def presences (name : Text) (signals : List Signal) : List Bool :=
  signals.filterMap (Signal.presence name)

/-- The RRsets of a domain by type and subname. -/
def itemsOf (db : Database) (name : Text) : Finset Item := ((db.lookup name).getD ∅).keys

theorem mem_itemsOf {db : Database} {name : Text} {item : Item} :
    item ∈ itemsOf db name ↔ (value db name item).isSome := by
  cases found : db.lookup name <;>
    simp [itemsOf, value, found, Finmap.mem_keys, Finmap.lookup_isSome]

theorem value_eq_none {db : Database} {name : Text} (absent : db.lookup name = none)
    (item : Item) : value db name item = none := by
  simp [value, absent]

theorem lookup_of_value {db : Database} {name : Text} {item : Item} {rrset : RRset}
    (found : value db name item = some rrset) : (db.lookup name).isSome := by
  unfold value at found
  cases present : db.lookup name <;> simp_all

theorem value_insert_empty {db : Database} {name : Text} (absent : db.lookup name = none)
    (d : Text) (i : Item) : value (db.insert name ∅) d i = value db d i := by
  by_cases same : d = name
  · subst same
    simp [value, absent]
  · simp [value, Finmap.lookup_insert_of_ne db same]

theorem value_erase (db : Database) (name d : Text) (i : Item) :
    value (db.erase name) d i = if d = name then none else value db d i := by
  by_cases same : d = name
  · subst same
    simp [value]
  · simp [value, same, Finmap.lookup_erase_ne same]

theorem value_put {db : Database} {name : Text} (present : (db.lookup name).isSome)
    (item : Item) (rrset : Option RRset) (d : Text) (i : Item) :
    value (put db name item rrset) d i
      = if d = name ∧ i = item then rrset else value db d i := by
  obtain ⟨rrsets, found⟩ := Option.isSome_iff_exists.mp present
  by_cases domain : d = name
  · subst domain
    by_cases same : i = item
    · subst same
      cases rrset <;> simp [value, put, found]
    · cases rrset <;>
        simp [value, put, found, same, Finmap.lookup_insert_of_ne, Finmap.lookup_erase_ne]
  · cases rrset <;> simp [value, put, found, domain, Finmap.lookup_insert_of_ne db domain]

theorem itemsOf_put {db : Database} {name : Text} (present : (db.lookup name).isSome)
    (item : Item) (rrset : Option RRset) :
    itemsOf (put db name item rrset) name
      = if rrset.isSome then insert item (itemsOf db name) else (itemsOf db name).erase item := by
  ext other
  rw [mem_itemsOf, value_put present]
  by_cases same : other = item
  · subst same
    cases rrset <;> simp
  · cases rrset <;> simp [same, mem_itemsOf]

theorem lookup_put_of_ne {db : Database} {name d : Text} (other : d ≠ name) (item : Item)
    (rrset : Option RRset) : (put db name item rrset).lookup d = db.lookup d := by
  cases found : db.lookup name <;> cases rrset <;>
    simp [put, found, Finmap.lookup_insert_of_ne db other]

@[simp] theorem lookup_put_isSome (db : Database) (name : Text) (item : Item)
    (rrset : Option RRset) (d : Text) :
    ((put db name item rrset).lookup d).isSome = (db.lookup d).isSome := by
  cases found : db.lookup name with
  | none => simp [put, found]
  | some rrsets =>
    by_cases domain : d = name
    · subst domain
      cases rrset <;> simp [put, found]
    · cases rrset <;> simp [put, found, Finmap.lookup_insert_of_ne db domain]

end DesecStack.Changes.Models
