/-!
# JSON values

Snapshots are exchanged as JSON. This module has the values, and the rules by which typed data
is read out of them: integers must fit, required fields must be there, and no field that is
looked at may be given twice. A record may also be given as an array of its values alone.
-/

namespace W65C02

/-- A JSON value. Numbers written without fraction and exponent are kept exactly; any other
number is kept as it was written.

Some texts obey the grammar and yet stand for no value: strings and field names with half of a
surrogate pair, numbers beyond the greatest double, and values that nest too deep. All of them
are the same unreadable value. Nothing can be read out of it, but it does no harm where nothing
is read. -/
inductive Json where
  | null
  | bool (value : Bool)
  | integer (value : Int)
  | decimal (text : String)
  | string (value : String)
  | array (items : List Json)
  | object (fields : List (String × Json))
  | unreadable
  deriving Inhabited

namespace Json

/-- A natural number as a JSON value. -/
def ofNat (n : Nat) : Json := integer (Int.ofNat n)

/-- The number in a value, if it is a natural number below a bound. -/
def natBelow? (bound : Nat) : Json → Option Nat
  | integer (Int.ofNat n) => if n < bound then some n else none
  | _ => none

/-- The byte in a value. -/
def byte? (j : Json) : Option UInt8 := (j.natBelow? UInt8.size).map UInt8.ofNat

/-- The word in a value. -/
def word? (j : Json) : Option UInt16 := (j.natBelow? UInt16.size).map UInt16.ofNat

/-- The thirty-two-bit number in a value. -/
def uint32? (j : Json) : Option UInt32 := (j.natBelow? UInt32.size).map UInt32.ofNat

/-- The sixty-four-bit number in a value. -/
def uint64? (j : Json) : Option UInt64 := (j.natBelow? UInt64.size).map UInt64.ofNat

/-- The truth value in a value. -/
def bool? : Json → Option Bool
  | bool value => some value
  | _ => none

/-- The text in a value. -/
def string? : Json → Option String
  | string value => some value
  | _ => none

/-- The elements of an array, each read by the same rule. -/
def list? {α : Type} (item? : Json → Option α) : Json → Option (List α)
  | array items => items.mapM item?
  | _ => none

/-- The fields of an object. -/
def fields? : Json → Option (List (String × Json))
  | object fields => some fields
  | _ => none

/-- The fields of a record. It is an object, or an array of the values alone, in the order of
the names; only the values of the trailing names may be left out at the end of the array. -/
def record? (names trailing : List String) : Json → Option (List (String × Json))
  | object fields => some fields
  | array items =>
    if names.length ≤ items.length ∧ items.length ≤ names.length + trailing.length then
      some ((names ++ trailing).zip items)
    else none
  | _ => none

/-- All values that are given for a field. -/
def valuesOf (fields : List (String × Json)) (name : String) : List Json :=
  (fields.filter (fun field => field.1 == name)).map (·.2)

/-- A field that must be given exactly once. -/
def required? {α : Type} (fields : List (String × Json)) (name : String)
    (value? : Json → Option α) : Option α :=
  match valuesOf fields name with
  | [value] => value? value
  | _ => none

/-- A field that may be missing or null. -/
def optional? {α : Type} (fields : List (String × Json)) (name : String)
    (value? : Json → Option α) : Option (Option α) :=
  match valuesOf fields name with
  | [] | [null] => some none
  | [value] => (value? value).map some
  | _ => none

/-- A field that has a default when it is missing. -/
def defaulted? {α : Type} (fields : List (String × Json)) (name : String) (default : α)
    (value? : Json → Option α) : Option α :=
  match valuesOf fields name with
  | [] => some default
  | [value] => value? value
  | _ => none

mutual

/-- Whether a value can be read to its last part. -/
def isReadable : Json → Bool
  | array items => allReadable items
  | object fields => allFieldsReadable fields
  | unreadable => false
  | _ => true

/-- Whether all elements of an array can be read to their last parts. -/
def allReadable : List Json → Bool
  | [] => true
  | item :: rest => item.isReadable && allReadable rest

/-- Whether all fields of an object can be read to their last parts. -/
def allFieldsReadable : List (String × Json) → Bool
  | [] => true
  | (_, value) :: rest => value.isReadable && allFieldsReadable rest

end

/-- The JSON value of something that may be missing. -/
def ofOption {α : Type} (toJson : α → Json) : Option α → Json
  | none => null
  | some a => toJson a

end Json

end W65C02
