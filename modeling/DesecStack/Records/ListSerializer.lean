/- module: DesecStack/Records/ListSerializer
   source: api/desecapi/serializers/records.py
   digest: Validation of a list of RRsets: the index of rows by key, and the check of each row. -/

import DesecStack.Records.Serializer

set_option autoImplicit false
set_option relaxedAutoImplicit false

namespace DesecStack.Records.ListSerializer

open Library.PyText
open Library.Surrogates
open Changes.Models (RRset Item RRsets cname)
open Fields Serializer

/-- The raw key of a row; absent and null values are both `none`. -/
abbrev Key := Option Str × Option Str

/-- An entry of the nested index: subname, type, and a position in the data, or `none` for the
database. -/
abbrev Entry := Option Str × Option Str × Option Nat

abbrev Index := Finset Entry

def expectedDictionary (row : Json) : Text :=
  "Expected a dictionary, but got ".toList ++ row.typeName ++ ".".toList

def expectedString (value : Json) : Text :=
  "Expected a string, but got ".toList ++ value.typeName ++ ".".toList

/-- `data_item.get(key)` where the value is a string, null or absent. -/
def strOf (data : List (Text × Json)) (key : Text) : Option Str :=
  match data.lookup key with
  | some (.str s) => some (.text s)
  | some (.unencodable s) => some (.unencodable s)
  | _ => none

/-- `_key` of a row whose subname and type have the right JSON types. -/
def keyOfRow (data : List (Text × Json)) : Key := (strOf data subnameKey, strOf data typeKey)

def typeError (data : List (Text × Json)) (key : Text) : Errors :=
  match data.lookup key with
  | none | some .null | some (.str _) | some (.unencodable _) => []
  | some other => [(key, .text (expectedString other))]

/-- A row whose JSON types allow a look at its key, or its errors. -/
def shape : Json → Except Errors (List (Text × Json))
  | .dict data =>
      match typeError data subnameKey ++ typeError data typeKey with
      | [] => .ok data
      | errors => .error errors
  | other => .error [(nonFieldErrors, .text (expectedDictionary other))]

/-- `item.get("records") == []` -/
def isEmptyRow (data : List (Text × Json)) : Bool :=
  (data.lookup recordsKey).any Json.isEmptyList

/-- The RRsets in the database at a subname, under position `none`. -/
def stored (rrsets : RRsets) (subname : Option Str) : Index :=
  (rrsets.keys.filter fun item => some (.text item.2) = subname).image fun item =>
    (subname, some (.text item.1), none)

/-- What the query for the RRsets at the subname of a row raises, if the subname is no text for the
database. -/
def queryError (row : Json) : Option Raised :=
  match (shape row).toOption.bind fun data => strOf data subnameKey with
  | some (.unencodable _) => some .unicodeEncodeError
  | some (.text s) => if Char.ofNat 0 ∈ s then some .dataError else none
  | none => none

/-- The first loop, where all queries are answered: rows are indexed by their key, beside the RRsets
at their subnames. -/
def indexRow (rrsets : RRsets) (indices : Index) (row : Nat × Json) : Index :=
  match shape row.2 with
  | .error _ => indices
  | .ok data =>
      let key := keyOfRow data
      let indices := if ∃ entry ∈ indices, entry.1 = key.1 then indices
        else indices ∪ stored rrsets key.1
      insert (key.1, key.2, some row.1) indices

def numbered (data : List Json) : List (Nat × Json) := data.zipIdx.map Prod.swap

def indices (rrsets : RRsets) (data : List Json) : Index :=
  (numbered data).foldl (indexRow rrsets) ∅

/-- The second loop: an emptied row takes itself and the database out of the index. -/
def collapseRow (collapsed : Index) (row : Nat × Json) : Index :=
  match shape row.2 with
  | .error _ => collapsed
  | .ok data =>
      if isEmptyRow data then
        let key := keyOfRow data
        (collapsed.erase (key.1, key.2, some row.1)).erase (key.1, key.2, none)
      else collapsed

def collapsedIndices (rrsets : RRsets) (data : List Json) : Index :=
  (numbered data).foldl collapseRow (indices rrsets data)

/-- The positions of a key in the data. -/
def dataIndices (index : Index) (key : Key) : Finset Nat :=
  (index.filter fun entry => entry.1 = key.1 ∧ entry.2.1 = key.2).biUnion fun entry =>
    entry.2.2.toFinset

/-- The entries at a subname whose type excludes the given one. -/
def conflicts (index : Index) (key : Key) : Index :=
  index.filter fun entry =>
    entry.1 = key.1 ∧ ¬ (entry.2.1 = some (.text cname) ↔ key.2 = some (.text cname))

def typesAt (conflicting : Index) (position : Option Nat) : Finset (Option Str) :=
  (conflicting.filter fun entry => entry.2.2 = position).image fun entry => entry.2.1

/-- The sorted types at one position; `none` is the `TypeError` on an absent type. -/
def positionString (conflicting : Index) (position : Option Nat) : Option Text :=
  if none ∈ typesAt conflicting position then none
  else
    let types := (typesAt conflicting position).biUnion fun type => type.toFinset
    let label := (position.map fun n => ofInt n).getD "database".toList
    some (label ++ " (".toList ++ join ", ".toList (sortedShown types) ++ ")".toList)

/-- `_types_by_position_string`: positions in order, the database last. -/
def typesByPositionString (conflicting : Index) : Option Text := do
  let positions := (conflicting.biUnion fun entry => entry.2.2.toFinset).sort (· ≤ ·)
  let database := if ∃ entry ∈ conflicting, entry.2.2 = none then [none] else []
  let strings ← (positions.map some ++ database).mapM (positionString conflicting)
  pure (join ", ".toList strings)

def duplicateMessage (others : Finset Nat) : Text :=
  "Same subname and type as in position(s) ".toList ++
    join ", ".toList ((others.sort (· ≤ ·)).map fun n => ofInt n) ++ ", but must be unique.".toList

/-- What is known about a list apart from its data: the method, and the RRsets selected. -/
structure Request where
  ctx : Context
  isPartial : Bool
  queryset : Finset Item

section Rows

variable (request : Request)

/-- `known_instances.get(key)` -/
def knownInstance (key : Key) : Instance :=
  match key with
  | (some (.text subname), some (.text type)) =>
      if (type, subname) ∈ request.queryset then
        (request.ctx.rrsets.lookup (type, subname)).map fun rrset => ((type, subname), rrset)
      else none
  | _ => none

/-- A partial update must not create an RRset. -/
def rowRoot (data : List (Text × Json)) : Root where
  many := true
  isPartial := request.isPartial &&
    !((knownInstance request (keyOfRow data)).isNone && !isEmptyRow data)

/-- The validation of a row by the child serializer. -/
def validateRow (data : List (Text × Json)) : Outcome Attrs :=
  runValidation request.ctx (rowRoot request data) (knownInstance request (keyOfRow data)) data

/-- The checks of a row against the other rows and the database. -/
def checkRow (index collapsed : Index) (position : Nat) (data : List (Text × Json)) :
    Outcome Unit :=
  let key := keyOfRow data
  let positions := dataIndices index key
  if 1 < positions.card then nonFieldError (duplicateMessage (positions.erase position))
  else if isEmptyRow data then .ok ()
  else
    let conflicting := conflicts collapsed key
    if conflicting = ∅ then .ok ()
    else match typesByPositionString conflicting with
      | none => .error .typeError
      | some types => nonFieldError (exclusionMessage types)

/-- One round of the third loop. -/
def runRow (index collapsed : Index) (position : Nat) (data : List (Text × Json)) :
    Outcome Attrs := do
  checkRow index collapsed position data
  validateRow request data

/-- The result of a round: only validation errors are collected. -/
def collect : Outcome Attrs → Outcome (Except Errors Attrs)
  | .ok attrs => .ok (.ok attrs)
  | .error (.invalid errors) => .ok (.error errors)
  | .error other => .error other

def rowResult (index collapsed : Index) (row : Nat × Json) : Outcome (Except Errors Attrs) :=
  match shape row.2 with
  | .error errors => .ok (.error errors)
  | .ok data => collect (runRow request index collapsed row.1 data)

/-- How a list fails: the errors of each row, a value that is no list, or an exception that
escapes. -/
inductive ListRaised where
  | rows (errors : List Errors)
  | notAList (message : Text)
  | escaped (raised : Raised)

def errorsOf : Except Errors Attrs → Errors
  | .ok _ => []
  | .error errors => errors

def notAList (typeName : Text) : Text :=
  "Expected a list of items but got ".toList ++ typeName ++ ".".toList

/-- The rows of a list, once the database has answered for all subnames. -/
def checkRows (rows : List Json) : Except ListRaised (List Attrs) :=
  let index := indices request.ctx.rrsets rows
  let collapsed := collapsedIndices request.ctx.rrsets rows
  match (numbered rows).mapM (rowResult request index collapsed) with
  | .error raised => .error (.escaped raised)
  | .ok results =>
      if (results.map errorsOf).all List.isEmpty then
        .ok (results.filterMap Except.toOption)
      else .error (.rows (results.map errorsOf))

/-- `RRsetListSerializer.to_internal_value`. The first loop asks the database for the RRsets at
every subname before any row is checked. -/
def toInternalValue (data : Json) : Except ListRaised (List Attrs) :=
  match data with
  | .list rows =>
      match rows.findSome? queryError with
      | some raised => .error (.escaped raised)
      | none => checkRows request rows
  | other => .error (.notAList (notAList other.typeName))

end Rows

end DesecStack.Records.ListSerializer
