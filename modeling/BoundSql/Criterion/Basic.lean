import BoundSql.Operator
import BoundSql.Value.Basic

/-!
# Criteria and assignments

A `Criterion` is one condition of a WHERE clause, and an `Assignment` one
column of an INSERT or UPDATE. A criteria list is ordered. Criteria whose
groupings have the same key are written together in parentheses; the texts
before and after the group stand in for connectives of the outer list.
-/

namespace BoundSql

/-- Membership of a criterion in a group. -/
structure Grouping where
  key : String
  /-- Stands before the group in place of a connective. -/
  before : Option String := none
  /-- Stands after the group and is the connective of what follows. -/
  after : Option String := none
  deriving DecidableEq, Repr, Inhabited

/-- One condition; what is absent is decided by the operator policy. -/
structure Criterion where
  column : String := ""
  comparison : Option Comparison := none
  value : Option Value := none
  connective : Option Connective := none
  bindType : Option BindType := none
  grouping : Option Grouping := none
  deriving Inhabited

namespace Criterion

/-- The condition that a column equals a value. -/
def equals (column : String) (value : Value) : Criterion :=
  { column, value := some value }

/-- The condition that a column is null. -/
def isNull (column : String) : Criterion :=
  { column, comparison := some .isNull }

/-- The condition that a column is not null. -/
def isNotNull (column : String) : Criterion :=
  { column, comparison := some .isNotNull }

/-- The condition that a column is one of some values. -/
def isIn (column : String) (values : List Value) : Criterion :=
  { column, comparison := some .isIn, value := some (.list values) }

end Criterion

/-- One column of an INSERT or UPDATE. -/
structure Assignment where
  column : String
  value : Value
  /-- Whether the value is bound; otherwise its literal is written into the statement. -/
  bound : Bool := true
  bindType : Option BindType := none
  deriving Inhabited

namespace Assignment

/-- Assigns the value of an expression that is written into the statement as it is. -/
def raw (column expression : String) : Assignment :=
  { column, value := .text expression, bound := false }

/-- The bind type of a bound assignment is text unless it names another. -/
def kind (assignment : Assignment) : BindType :=
  assignment.bindType.getD .text

end Assignment

end BoundSql
