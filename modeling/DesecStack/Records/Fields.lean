/- module: DesecStack/Records/Fields
   source: the fields of Django REST framework, as api/desecapi/serializers/records.py uses them
   digest: JSON values, error details, and the validation of character and integer fields. -/

import DesecStack.Library.Surrogates

set_option autoImplicit false
set_option relaxedAutoImplicit false

namespace DesecStack.Records.Fields

open Library.PyText
open Library.Surrogates

/-- A parsed JSON value. A float is given by its `str`, a string as a text or as what UTF-8 cannot
encode, a dictionary by its entries. (Keys with a surrogate are left out, as no key is looked up
that has one.) -/
inductive Json where
  | null
  | bool (b : Bool)
  | int (n : Int)
  | float (repr : Text)
  | str (s : Text)
  | unencodable (s : Unencodable)
  | list (items : List Json)
  | dict (entries : List (Text × Json))

/-- `type(value).__name__` -/
def Json.typeName : Json → Text
  | .null => "NoneType".toList
  | .bool _ => "bool".toList
  | .int _ => "int".toList
  | .float _ => "float".toList
  | .str _ | .unencodable _ => "str".toList
  | .list _ => "list".toList
  | .dict _ => "dict".toList

/-- `str(value)` of a value that is not a container. -/
def Json.scalar : Json → Option Str
  | .null => some (.text "None".toList)
  | .bool b => some (.text (if b then "True".toList else "False".toList))
  | .int n => some (.text (ofInt n))
  | .float repr => some (.text repr)
  | .str s => some (.text s)
  | .unencodable s => some (.unencodable s)
  | .list _ | .dict _ => none

/-- `isinstance(value, str)` -/
def Json.isStr : Json → Bool
  | .str _ | .unencodable _ => true
  | _ => false

/-- `value == []` -/
def Json.isEmptyList : Json → Bool
  | .list [] => true
  | _ => false

/-- What an error says of an item of a list: nothing, a list of texts, or texts by field. -/
inductive ItemDetail where
  | none
  | messages (texts : List Text)
  | fields (errors : List (Text × List Text))
  deriving DecidableEq

/-- What an error says of a field: a text, a list of texts, texts by field, or of each item. -/
inductive ErrorDetail where
  | text (message : Text)
  | messages (texts : List Text)
  | fields (errors : List (Text × List Text))
  | items (errors : List ItemDetail)
  deriving DecidableEq

/-- A dictionary of errors by field. -/
abbrev Errors := List (Text × ErrorDetail)

/-- How a validation can fail. All but `invalid` escape the handling of validation errors. -/
inductive Raised where
  | invalid (errors : Errors)
  | permissionDenied
  | keyError
  | attributeError
  | typeError
  | unicodeEncodeError
  | dataError
  deriving DecidableEq

abbrev Outcome := Except Raised

/-- The value of a field: `none` is `SkipField`. -/
abbrev FieldResult (α : Type) := Except ErrorDetail (Option α)

def fail {α : Type} (message : Text) : FieldResult α := .error (.messages [message])

def required : Text := "This field is required.".toList

def notNull : Text := "This field may not be null.".toList

def notBlank : Text := "This field may not be blank.".toList

def notAString : Text := "Not a valid string.".toList

def notAnInteger : Text := "A valid integer is required.".toList

def stringTooLong : Text := "String value too large.".toList

def nullCharacters : Text := "Null characters are not allowed.".toList

def surrogateCharacters (surrogate : Surrogate) : Text :=
  "Surrogate characters are not allowed: U+".toList ++
    (Nat.toDigits 16 (code (.inr surrogate))).map Char.toUpper ++ ".".toList

def maxLengthMessage (limit : Nat) : Text :=
  "Ensure this field has no more than ".toList ++ ofInt limit ++ " characters.".toList

def maxValueMessage (limit : Int) : Text :=
  "Ensure this value is less than or equal to ".toList ++ ofInt limit ++ ".".toList

def minValueMessage (limit : Int) : Text :=
  "Ensure this value is greater than or equal to ".toList ++ ofInt limit ++ ".".toList

/-- The messages of the validators that reject a value, in their order. -/
def rejections {α : Type} (validators : List (α → Option Text)) (value : α) : List Text :=
  validators.filterMap fun validator => validator value

def runValidators {α : Type} (validators : List (α → Option Text)) (value : α) : FieldResult α :=
  match rejections validators value with
  | [] => .ok (some value)
  | messages => .error (.messages messages)

/-- The parameters of a `CharField`; surrounding whitespace is trimmed as by default. -/
structure CharField where
  allowBlank : Bool
  maxLength : Option Nat
  validators : List (Str → Option Text)

def maxLengthValidator (limit : Nat) (value : Str) : Option Text :=
  if value.length ≤ limit then none else some (maxLengthMessage limit)

def nullCharactersValidator (value : Str) : Option Text :=
  if 0 ∈ value.codes then some nullCharacters else none

def surrogateCharactersValidator (value : Str) : Option Text :=
  value.surrogate?.map surrogateCharacters

/-- `CharField.run_validation` of a value that is present. The last validator leaves only texts. -/
def CharField.runValidation (field : CharField) (data : Json) : FieldResult Text :=
  let trimmed := data.scalar.map Str.strip
  if trimmed = some (.text []) then
    if field.allowBlank then .ok (some []) else fail notBlank
  else
    match data, trimmed with
    | .null, _ => fail notNull
    | .bool _, _ | _, none => fail notAString
    | _, some value =>
        (runValidators (field.validators ++ (field.maxLength.map maxLengthValidator).toList ++
          [nullCharactersValidator, surrogateCharactersValidator]) value).map
            fun accepted => accepted.bind Str.toText

/-- `re.sub(r"\.0*\s*$", "", s)` for a text without inner newlines after its last dot. -/
def dropDecimals (s : Text) : Text :=
  let core := rstrip s
  let head := (core.reverse.dropWhile (· == '0')).reverse
  if endsWith head ['.'] then head.dropLast else s

/-- `IntegerField.run_validation` of a value that is present. -/
def integerFieldRunValidation (unicode : Unicode) (validators : List (Int → Option Text))
    (data : Json) : FieldResult Int :=
  match data, data.scalar with
  | .null, _ => fail notNull
  | _, none => fail notAnInteger
  | _, some text =>
      if data.isStr && 1000 < text.length then fail stringTooLong
      else match text.toText.bind fun text => toInt unicode (dropDecimals text) with
        | none => fail notAnInteger
        | some n => runValidators validators n

def maxValueValidator (limit : Int) (value : Int) : Option Text :=
  if value ≤ limit then none else some (maxValueMessage limit)

def minValueValidator (limit : Int) (value : Int) : Option Text :=
  if limit ≤ value then none else some (minValueMessage limit)

end DesecStack.Records.Fields
