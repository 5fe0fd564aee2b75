import BoundSql.Fault
import BoundSql.KeyedList
import BoundSql.Text.Quoted

/-!
# Table registries

The tables of a statement under their aliases, in the order in which the
aliases were first added. The first is the primary table: selections start
from it, and it is what is inserted into, updated and deleted from. Every
other table is joined to it and needs a condition for that; the conditions of
the primary table do not count.
-/

namespace BoundSql

/-- A table and the pairs of expressions, left and right, on which it is joined. -/
structure Table where
  name : String
  on : KeyedList String := ∅
  deriving DecidableEq, Inhabited

namespace Table

/-- Joins the table on a further pair, in the place of the one with its left side. -/
def joinedOn (table : Table) (left right : String) : Table :=
  { table with on := table.on.insert left right }

/-- The name between quotes. -/
def quotedName (table : Table) : String := Text.quoted table.name

/-- The quoted name with a quoted alias. -/
def aliased (table : Table) (tableAlias : String) : String :=
  table.quotedName ++ " AS " ++ Text.quoted tableAlias

/-- The condition of a join. -/
def condition (table : Table) : String :=
  " AND ".intercalate (table.on.entries.map fun (left, right) => left ++ " = " ++ right)

/-- The join of a table, which needs a condition. -/
def join (tableAlias : String) (table : Table) : Except Fault String :=
  if table.on.isEmpty then .error (.of (.missingJoinCondition tableAlias))
  else .ok (" JOIN " ++ table.aliased tableAlias ++ " ON " ++ table.condition)

end Table

/-- Tables under their aliases. -/
structure Registry where
  tables : KeyedList Table := ∅
  deriving DecidableEq, Inhabited

namespace Registry

/-- The registry of one table, whose name is its alias. -/
def single (name : String) : Registry := ⟨KeyedList.ofEntries [(name, { name })]⟩

/-- Adds a table, in the place of the one that has its alias. -/
def add (registry : Registry) (tableAlias : String) (table : Table) : Registry :=
  ⟨registry.tables.insert tableAlias table⟩

/-- Adds tables in their order. -/
def ofTables (tables : List (String × Table)) : Registry :=
  ⟨KeyedList.ofEntries tables⟩

/-- The number of tables. -/
def size (registry : Registry) : Nat := registry.tables.size

/-- Whether there is no table. -/
def isEmpty (registry : Registry) : Bool := registry.tables.isEmpty

/-- The first table. -/
def primary (registry : Registry) : Except Fault Table :=
  match registry.tables.entries with
  | [] => .error (.of .noTables)
  | (_, table) :: _ => .ok table

/-- The table of an alias. -/
def get (registry : Registry) (tableAlias : String) : Except Fault Table :=
  match registry.tables.get? tableAlias with
  | some table => .ok table
  | none => .error (.of (.unknownTable tableAlias))

/-- The selection of columns from all tables, joined to the primary one. -/
def selectFrom (registry : Registry) (columns : String) : Except Fault String :=
  match registry.tables.entries with
  | [] => .error (.of .noTables)
  | (tableAlias, table) :: joined => do
    let joins ← joined.mapM fun (tableAlias, table) => table.join tableAlias
    pure ("SELECT " ++ columns ++ " FROM " ++ table.aliased tableAlias ++ String.join joins)

end Registry

end BoundSql
