import BoundSql.Json.Decode
import BoundSql.Value.Basic

/-!
# Values as JSON

A value is written as the JSON value that it looks like. Reading one back
accepts every JSON value but objects. Whole numbers that fit into 64 bits
with a sign are kept whole, and all other numbers are doubles. A JSON value
that is already at hand can be taken in whole: then each outermost object
becomes the text of its members sorted by key.
-/

namespace BoundSql

namespace Value

mutual

/-- The JSON value that a value looks like. -/
def toJson : Value → Json
  | null => .null
  | bool b => .bool b
  | int n => .int n.toInt
  | float x => .float x
  | text s => .string s
  | list items => .array (itemsToJson items)

/-- The JSON values of the items of a list. -/
def itemsToJson : List Value → List Json
  | [] => []
  | item :: rest => item.toJson :: itemsToJson rest

end

/-- A whole number, as a double if it does not fit. -/
def ofInt (n : Int) : Value :=
  if Int64.minValue.toInt ≤ n ∧ n ≤ Int64.maxValue.toInt then int (Int64.ofInt n)
  else float (Float.ofInt n)

mutual

/-- The value of a JSON value without objects. -/
def ofJson? : Json → Option Value
  | .null => some null
  | .bool b => some (bool b)
  | .int n => some (ofInt n)
  | .float x => some (float x)
  | .string s => some (text s)
  | .array items => (itemsOfJson? items).map list
  | .object _ => none

/-- The values of items without objects. -/
def itemsOfJson? : List Json → Option (List Value)
  | [] => some []
  | item :: rest => do
    let value ← ofJson? item
    let values ← itemsOfJson? rest
    pure (value :: values)

end

mutual

/-- The value of any JSON value, with objects as their text. -/
def ofJson : Json → Value
  | .null => null
  | .bool b => bool b
  | .int n => ofInt n
  | .float x => float x
  | .string s => text s
  | .array items => list (itemsOfJson items)
  | .object members => text (Json.object members).sorted.text

/-- The values of items, with objects as their text. -/
def itemsOfJson : List Json → List Value
  | [] => []
  | item :: rest => ofJson item :: itemsOfJson rest

end

/-- Decodes a value. The whole of it is read before its kind is looked at. -/
def decoder : Json.Decoder Value := fun room doc => do
  match ofJson? (← Json.Decoder.anything room doc) with
  | some value => pure value
  | none => throw (.noVariant "FilterValue")

/-- Reads a value from JSON text. -/
def read (source : String) : Json.Decoded Value :=
  Json.decode decoder source

/-- Reads any JSON value from text and takes it in whole. -/
def readAny (source : String) : Json.Decoded Value :=
  ofJson <$> Json.decode Json.Decoder.anything source

end Value

namespace BindType

/-- Decodes the name of a bind type. -/
def decoder : Json.Decoder BindType :=
  Json.Decoder.choice (all.map fun kind => (kind.name, Json.Payload.nothing kind))

/-- The JSON value of a bind type is its name. -/
def toJson (kind : BindType) : Json := .string kind.name

end BindType

end BoundSql
