import SpaMigration.Number.Binary64

/-!
# JSON values

A JSON value as a tree. An object keeps its fields as a list; `Json.canonical` sorts the fields of
every object by key and lets the last of several fields with one key win, which is the form
manifests are worked on and printed in.
-/
namespace SpaMigration

/-- A number without fraction and exponent that fits in 64 bits, or a floating-point number. -/
inductive JsonNumber where
  | whole (value : Int)
  | float (value : Binary64)
  deriving DecidableEq, Repr, Inhabited

/-- A JSON value. -/
inductive Json where
  | null
  | bool (value : Bool)
  | number (value : JsonNumber)
  | string (value : String)
  | array (items : List Json)
  | object (fields : List (String × Json))
  deriving Repr, Inhabited

namespace Json

/-- Fields of an object, and operations on them by key. -/
abbrev Fields := List (String × Json)

namespace Fields

/-- The value under a key. -/
def get? (fields : Fields) (key : String) : Option Json :=
  (fields.find? (·.1 == key)).map (·.2)

/-- The key occurs. -/
def hasKey (fields : Fields) (key : String) : Bool :=
  fields.any (·.1 == key)

/-- A new field in front of the first one with a greater key. -/
def insertSorted (key : String) (value : Json) : Fields → Fields
  | [] => [(key, value)]
  | field :: rest =>
    if key < field.1 then (key, value) :: field :: rest else field :: insertSorted key value rest

/-- The field with this key replaced, or a new one put in its place in key order. -/
def put (fields : Fields) (key : String) (value : Json) : Fields :=
  if fields.hasKey key then fields.map fun field => if field.1 == key then (key, value) else field
  else fields.insertSorted key value

/-- The fields without this key. -/
def erase (fields : Fields) (key : String) : Fields :=
  fields.filter (·.1 != key)

end Fields

/-- The fields of an object. -/
def fields? : Json → Option Fields
  | .object fields => some fields
  | _ => none

/-- The text of a string. -/
def string? : Json → Option String
  | .string s => some s
  | _ => none

/-- The items of an array. -/
def array? : Json → Option (List Json)
  | .array items => some items
  | _ => none

/-- A truth value. -/
def bool? : Json → Option Bool
  | .bool b => some b
  | _ => none

/-- A whole number that is not negative. -/
def natural? : Json → Option Nat
  | .number (.whole (.ofNat n)) => some n
  | _ => none

/-- The value under a key of an object. -/
def get? (json : Json) (key : String) : Option Json :=
  json.fields?.bind (Fields.get? · key)

mutual

/-- Every object sorted by key, the last field of each key kept. -/
def canonical : Json → Json
  | .array items => .array (canonicalItems items)
  | .object fields => .object (canonicalFields fields [])
  | json => json

/-- The canonical form of each item. -/
def canonicalItems : List Json → List Json
  | [] => []
  | item :: rest => item.canonical :: canonicalItems rest

/-- The canonical form of each field, put into `sorted` one after another. -/
def canonicalFields : List (String × Json) → Fields → Fields
  | [], sorted => sorted
  | (key, value) :: rest, sorted => canonicalFields rest (sorted.put key value.canonical)

end

end Json

end SpaMigration
