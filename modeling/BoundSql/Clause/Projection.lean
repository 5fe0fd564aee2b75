import BoundSql.Json.Decode

/-!
# Projections and orders

Which columns are selected and by what the rows are ordered. Both are trusted
expressions and are written as they are given.
-/

namespace BoundSql

/-- The columns of a selection. -/
inductive Projection where
  | all
  | columns (expressions : List String)
  deriving DecidableEq, Repr, Inhabited

namespace Projection

/-- A selection of columns, which is of all of them where none is given. -/
def ofColumns (expressions : List String) : Projection :=
  if expressions.isEmpty then all else columns expressions

/-- A selection of one expression, which is of all columns where it is empty. -/
def ofText (expression : String) : Projection :=
  if expression.isEmpty then all else columns [expression]

/-- The text of the selection. -/
def sql : Projection → String
  | all => "*"
  | columns expressions => ", ".intercalate expressions

/-- Reads a projection from JSON text. -/
def read (source : String) : Json.Decoded Projection :=
  Json.decode (Json.Decoder.choice [
    ("All", Json.Payload.nothing all),
    ("Fields", Json.Payload.something fun room doc =>
      columns <$> Json.Decoder.sequence Json.Decoder.string room doc)]) source

/-- The JSON value of a projection. -/
def toJson : Projection → Json
  | all => .string "All"
  | columns expressions => .object [("Fields", .array (expressions.map .string))]

end Projection

/-- The clause that orders rows, which is absent where nothing is given. -/
def orderBy : Option String → String
  | some order => if order.isEmpty then "" else " ORDER BY " ++ order
  | none => ""

end BoundSql
