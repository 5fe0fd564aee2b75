import BoundSql.Json.Decode
import BoundSql.Registry.Basic

/-!
# Registries as JSON

A registry is an object of its tables by alias, and the conditions of a table
are an object too. Document order is kept in both, and what a repeated key
says last counts in the place of the first. No conditions are written as
nothing at all.
-/

namespace BoundSql

namespace Table

/-- The members of a table. -/
inductive Member where
  | name
  | on
  deriving DecidableEq, Repr

/-- How a table is written. -/
def shape : Json.Shape Member where
  title := "struct Table"
  fields := [.name, .on]
  label
    | .name => "name"
    | .on => "on"
  required member := member == .name

/-- Sets a member of a table. -/
def setMember : Json.FieldDecoder Member Table
  | room, table, .name, doc => do
    pure { table with name := ← Json.Decoder.string room doc }
  | room, table, .on, doc => do
    let pairs ← Json.Decoder.entries Json.Decoder.string room doc
    pure { table with on := KeyedList.ofEntries pairs }

/-- Decodes a table. -/
def decoder : Json.Decoder Table :=
  shape.decoder { name := "" } setMember

/-- The JSON value of a table. -/
def toJson (table : Table) : Json :=
  .object <| ("name", .string table.name)
    :: if table.on.isEmpty then []
      else [("on", .object (table.on.entries.map fun (left, right) => (left, .string right)))]

end Table

namespace Registry

/-- Decodes a registry. -/
def decoder : Json.Decoder Registry := fun room doc =>
  ofTables <$> Json.Decoder.entries Table.decoder room doc

/-- Reads a registry from JSON text. -/
def read (source : String) : Json.Decoded Registry :=
  Json.decode decoder source

/-- The JSON value of a registry. -/
def toJson (registry : Registry) : Json :=
  .object (registry.tables.entries.map fun (tableAlias, table) => (tableAlias, table.toJson))

end Registry

end BoundSql
