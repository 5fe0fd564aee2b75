import BoundSql.Criterion.Basic
import BoundSql.Fault
import BoundSql.Value.Json

/-!
# Criteria and assignments as JSON

Members that are absent are left out when a criterion is written, and may be
left out or `null` when it is read; only for the value `null` is a value of
its own. An assignment must have a column and a value, a grouping a key. An
operator is given by its SQL text.
-/

namespace BoundSql

/-- A member, if there is something to write. -/
def Json.member? (key : String) (value : Option Json) : List (String × Json) :=
  match value with
  | some value => [(key, value)]
  | none => []

/-- Decodes the SQL text of a comparison. -/
def Comparison.decoder : Json.Decoder Comparison :=
  Json.Decoder.readString fun text => (Comparison.read text).mapError Fault.display

/-- Decodes the SQL text of a connective. -/
def Connective.decoder : Json.Decoder Connective :=
  Json.Decoder.readString fun text => (Connective.read text).mapError Fault.display

namespace Grouping

/-- The members of a grouping. -/
inductive Member where
  | key
  | before
  | after
  deriving DecidableEq, Repr

/-- How a grouping is written. -/
def shape : Json.Shape Member where
  title := "struct NestedSpec"
  fields := [.key, .before, .after]
  label
    | .key => "key"
    | .before => "before"
    | .after => "after"
  required member := member == .key

/-- Sets a member of a grouping. -/
def setMember : Json.FieldDecoder Member Grouping
  | room, grouping, .key, doc => do
    pure { grouping with key := ← Json.Decoder.string room doc }
  | room, grouping, .before, doc => do
    pure { grouping with before := ← Json.Decoder.optional Json.Decoder.string room doc }
  | room, grouping, .after, doc => do
    pure { grouping with after := ← Json.Decoder.optional Json.Decoder.string room doc }

/-- Decodes a grouping. -/
def decoder : Json.Decoder Grouping :=
  shape.decoder { key := "" } setMember

/-- The JSON value of a grouping. -/
def toJson (grouping : Grouping) : Json :=
  .object <| ("key", .string grouping.key)
    :: Json.member? "before" (grouping.before.map .string)
    ++ Json.member? "after" (grouping.after.map .string)

end Grouping

namespace Criterion

/-- The members of a criterion. -/
inductive Member where
  | column
  | comparison
  | value
  | connective
  | bindType
  | grouping
  deriving DecidableEq, Repr

/-- How a criterion is written. -/
def shape : Json.Shape Member where
  title := "struct Criterion"
  fields := [.column, .comparison, .value, .connective, .bindType, .grouping]
  label
    | .column => "column"
    | .comparison => "operator"
    | .value => "value"
    | .connective => "logicalOperator"
    | .bindType => "type"
    | .grouping => "nested"
  required _ := false

/-- Sets a member of a criterion. -/
def setMember : Json.FieldDecoder Member Criterion
  | room, criterion, .column, doc => do
    pure { criterion with column := ← Json.Decoder.string room doc }
  | room, criterion, .comparison, doc => do
    pure { criterion with comparison := ← Json.Decoder.optional Comparison.decoder room doc }
  | room, criterion, .value, doc => do
    pure { criterion with value := some (← Value.decoder room doc) }
  | room, criterion, .connective, doc => do
    pure { criterion with connective := ← Json.Decoder.optional Connective.decoder room doc }
  | room, criterion, .bindType, doc => do
    pure { criterion with bindType := ← Json.Decoder.optional BindType.decoder room doc }
  | room, criterion, .grouping, doc => do
    pure { criterion with grouping := ← Json.Decoder.optional Grouping.decoder room doc }

/-- Decodes a criterion. -/
def decoder : Json.Decoder Criterion :=
  shape.decoder {} setMember

/-- The JSON value of a criterion. -/
def toJson (criterion : Criterion) : Json :=
  .object <| ("column", .string criterion.column)
    :: Json.member? "operator" (criterion.comparison.map fun op => .string op.sql)
    ++ Json.member? "value" (criterion.value.map Value.toJson)
    ++ Json.member? "logicalOperator" (criterion.connective.map fun op => .string op.sql)
    ++ Json.member? "type" (criterion.bindType.map BindType.toJson)
    ++ Json.member? "nested" (criterion.grouping.map Grouping.toJson)

/-- Reads a criteria list from JSON text. -/
def readList (source : String) : Except Fault (List Criterion) :=
  match Json.decode (Json.Decoder.sequence decoder) source with
  | .ok criteria => .ok criteria
  | .error e =>
    .error ((Fault.of (.invalidCriteria ("Failed to decode criteria: " ++ e.message))).dueTo
      e.message)

end Criterion

namespace Assignment

/-- The members of an assignment. -/
inductive Member where
  | column
  | value
  | bound
  | bindType
  deriving DecidableEq, Repr

/-- How an assignment is written. -/
def shape : Json.Shape Member where
  title := "struct FieldValue"
  fields := [.column, .value, .bound, .bindType]
  label
    | .column => "column"
    | .value => "value"
    | .bound => "bind"
    | .bindType => "type"
  required member := member == .column || member == .value

/-- Sets a member of an assignment. -/
def setMember : Json.FieldDecoder Member Assignment
  | room, assignment, .column, doc => do
    pure { assignment with column := ← Json.Decoder.string room doc }
  | room, assignment, .value, doc => do
    pure { assignment with value := ← Value.decoder room doc }
  | room, assignment, .bound, doc => do
    pure { assignment with bound := ← Json.Decoder.boolean room doc }
  | room, assignment, .bindType, doc => do
    pure { assignment with bindType := ← Json.Decoder.optional BindType.decoder room doc }

/-- Decodes an assignment. -/
def decoder : Json.Decoder Assignment :=
  shape.decoder { column := "", value := .null } setMember

/-- The JSON value of an assignment. -/
def toJson (assignment : Assignment) : Json :=
  .object <| [("column", .string assignment.column), ("value", assignment.value.toJson),
      ("bind", .bool assignment.bound)]
    ++ Json.member? "type" (assignment.bindType.map BindType.toJson)

/-- Reads a list of assignments from JSON text. -/
def readList (source : String) : Json.Decoded (List Assignment) :=
  Json.decode (Json.Decoder.sequence decoder) source

/-- Reads the rows of a batch from JSON text. -/
def readRows (source : String) : Json.Decoded (List (List Assignment)) :=
  Json.decode (Json.Decoder.sequence (Json.Decoder.sequence decoder)) source

end Assignment

end BoundSql
