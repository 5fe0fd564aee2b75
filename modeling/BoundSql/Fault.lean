import BoundSql.Operator

/-!
# Faults

Everything that can go wrong while a statement is built or bound. A `Fault`
is a `Cause`, which fixes the code and the message, together with the context
in which it arose: the operation, the input field, the position of the
criterion, and advice. The constructors of `Cause` are the causes themselves;
their wording is in `Cause.message` alone.

Codes are grouped by their thousands: 1xxx for input that is malformed, 2xxx
for tables, assignments or a policy that do not fit together, 3xxx for input
that is missing altogether, 4xxx for a statement that refuses a value.
-/

namespace BoundSql

/-- The stable codes by which callers tell faults apart. -/
inductive Code where
  | emptyColumn
  | invalidComparison
  | invalidConnective
  | missingValue
  | invalidValue
  | placeholderCollision
  | invalidCriteria
  | emptyAssignments
  | missingJoinCondition
  | unknownTable
  | inconsistentBatchRow
  | invalidPolicy
  | noTables
  | bindRefused
  deriving DecidableEq, Repr, Inhabited

/-- The families into which codes fall by their thousands. -/
inductive Family where
  | validation
  | configuration
  | emptyInput
  | binding
  deriving DecidableEq, Repr, Inhabited

namespace Code

/-- The number of a code. -/
def number : Code → Nat
  | emptyColumn => 1001
  | invalidComparison => 1002
  | invalidConnective => 1003
  | missingValue => 1004
  | invalidValue => 1005
  | placeholderCollision => 1006
  | invalidCriteria => 1007
  | emptyAssignments => 2001
  | missingJoinCondition => 2002
  | unknownTable => 2003
  | inconsistentBatchRow => 2004
  | invalidPolicy => 2005
  | noTables => 3001
  | bindRefused => 4001

/-- The written form of a code. -/
def text (code : Code) : String :=
  "Q" ++ toString code.number

/-- The family of a code is decided by its thousands. -/
def family (code : Code) : Family :=
  match code.number / 1000 with
  | 1 => .validation
  | 2 => .configuration
  | 3 => .emptyInput
  | _ => .binding

/-- A short description of what a code stands for. -/
def description : Code → String
  | emptyColumn => "Column name cannot be empty"
  | invalidComparison => "Invalid comparison operator"
  | invalidConnective => "Invalid logical operator"
  | missingValue => "Missing criterion value"
  | invalidValue => "Invalid criterion value"
  | placeholderCollision => "Placeholder name collision"
  | invalidCriteria => "Invalid criteria input"
  | emptyAssignments => "Field values cannot be empty"
  | missingJoinCondition => "Joined table is missing its on condition"
  | unknownTable => "Unknown table alias"
  | inconsistentBatchRow => "Inconsistent batch row"
  | invalidPolicy => "Invalid compiler configuration"
  | noTables => "Tables cannot be empty"
  | bindRefused => "Binding failed"

end Code

/-- Why something failed. `other` is a code with a message of the caller's own. -/
inductive Cause where
  | emptyColumn
  | invalidComparison (text : String)
  | invalidConnective (text : String)
  | missingValue (column operator : String)
  | invalidValue (column detail : String)
  | placeholderCollision (name : String)
  | invalidCriteria (detail : String)
  | emptyAssignments (operation : String)
  | missingJoinCondition (tableAlias : String)
  | unknownTable (tableAlias : String)
  | inconsistentBatchRow (row : Nat)
  | invalidPolicy (detail : String)
  | noTables
  | bindRefused (name detail : String)
  | other (code : Code) (message : String)
  deriving DecidableEq, Repr, Inhabited

namespace Cause

/-- The code under which a cause is reported. -/
def code : Cause → Code
  | emptyColumn => .emptyColumn
  | invalidComparison _ => .invalidComparison
  | invalidConnective _ => .invalidConnective
  | missingValue _ _ => .missingValue
  | invalidValue _ _ => .invalidValue
  | placeholderCollision _ => .placeholderCollision
  | invalidCriteria _ => .invalidCriteria
  | emptyAssignments _ => .emptyAssignments
  | missingJoinCondition _ => .missingJoinCondition
  | unknownTable _ => .unknownTable
  | inconsistentBatchRow _ => .inconsistentBatchRow
  | invalidPolicy _ => .invalidPolicy
  | noTables => .noTables
  | bindRefused _ _ => .bindRefused
  | other code _ => code

/-- The wording of a cause. -/
def message : Cause → String
  | emptyColumn => "Column name cannot be empty"
  | invalidComparison text => "'" ++ text ++ "' is not a valid comparison operator"
  | invalidConnective text => "'" ++ text ++ "' is not a valid logical operator"
  | missingValue column operator =>
    "Criterion on '" ++ column ++ "' with operator '" ++ operator ++ "' requires a value"
  | invalidValue column detail => "Invalid value for '" ++ column ++ "': " ++ detail
  | placeholderCollision name => "Placeholder '" ++ name ++ "' would be bound twice"
  | invalidCriteria detail => detail
  | emptyAssignments operation => "fieldsValues cannot be empty in " ++ operation
  | missingJoinCondition tableAlias =>
    "Joined table '" ++ tableAlias ++ "' must have an on condition"
  | unknownTable tableAlias => "Requested table does not exist for the alias: " ++ tableAlias
  | inconsistentBatchRow row =>
    "Batch row " ++ toString row ++ " does not use the same columns as row 0"
  | invalidPolicy detail => detail
  | noTables => "Tables cannot be empty"
  | bindRefused name detail => "Failed to bind " ++ name ++ ": " ++ detail
  | other _ message => message

/-- The operation that a cause names of itself. -/
def operation : Cause → Option String
  | emptyAssignments operation => some operation
  | _ => none

/-- The input field that a cause names of itself. -/
def field : Cause → Option String
  | emptyColumn => some "column"
  | invalidComparison _ => some "operator"
  | invalidConnective _ => some "logicalOperator"
  | missingValue _ _ | invalidValue _ _ => some "value"
  | missingJoinCondition _ => some "on"
  | _ => none

/-- The advice that goes with a cause. -/
def suggestions : Cause → List String
  | invalidComparison _ =>
    ["Use one of: " ++ ", ".intercalate (Comparison.all.map Comparison.sql)]
  | invalidConnective _ =>
    ["Use one of: " ++ ", ".intercalate (Connective.all.map Connective.sql)]
  | placeholderCollision _ => ["Rename one of the columns so their placeholders differ"]
  | inconsistentBatchRow _ => ["Give every row the same columns in the same order"]
  | noTables => ["Register at least one table before building a SELECT or COUNT"]
  | _ => []

end Cause

/-- A cause in its context. `source` is the text of the failure behind it, if any. -/
structure Fault where
  cause : Cause
  operation : Option String
  field : Option String
  position : Option Nat
  suggestions : List String
  source : Option String
  deriving DecidableEq, Repr, Inhabited

namespace Fault

/-- A fault with the context that its cause brings along. -/
def of (cause : Cause) : Fault :=
  ⟨cause, cause.operation, cause.field, none, cause.suggestions, none⟩

/-- The same fault, met during an operation. -/
def during (operation : String) (fault : Fault) : Fault :=
  { fault with operation := some operation }

/-- The same fault, met in an input field. -/
def inField (field : String) (fault : Fault) : Fault :=
  { fault with field := some field }

/-- The same fault, met at the criterion of a 1-based position. -/
def atPosition (position : Nat) (fault : Fault) : Fault :=
  { fault with position := some position }

/-- The same fault with one more piece of advice. -/
def suggest (advice : String) (fault : Fault) : Fault :=
  { fault with suggestions := fault.suggestions ++ [advice] }

/-- The same fault, brought about by another failure. -/
def dueTo (source : String) (fault : Fault) : Fault :=
  { fault with source := some source }

/-- The code of a fault is that of its cause. -/
def code (fault : Fault) : Code :=
  fault.cause.code

/-- The message of a fault is that of its cause. -/
def message (fault : Fault) : String :=
  fault.cause.message

/-- The family of a fault is that of its code. -/
def family (fault : Fault) : Family :=
  fault.code.family

/-- The fault on one line. -/
def display (fault : Fault) : String :=
  "[" ++ fault.code.text ++ "] " ++ fault.message

/-- One line of context, or nothing where the context is unknown. -/
def contextLine (label : String) : Option String → String
  | some detail => "  → " ++ label ++ detail ++ "\n"
  | none => ""

/-- Advice, numbered from `first`, a line each. -/
def adviceLines : Nat → List String → String
  | _, [] => ""
  | first, advice :: rest =>
    "  " ++ toString first ++ ". " ++ advice ++ "\n" ++ adviceLines (first + 1) rest

/-- The fault with all its context and advice, a line each. -/
def report (fault : Fault) : String :=
  "Error [" ++ fault.code.text ++ "]: " ++ fault.message ++ "\n"
    ++ contextLine "While: " fault.operation
    ++ contextLine "Field: " fault.field
    ++ contextLine "Criterion: #" (fault.position.map toString)
    ++ if fault.suggestions.isEmpty then ""
      else "\nSuggestions:\n" ++ adviceLines 1 fault.suggestions

end Fault

/-- Reads the SQL text of a comparison and refuses any other text. -/
def Comparison.read (text : String) : Except Fault Comparison :=
  match ofSql? text with
  | some op => .ok op
  | none => .error (.of (.invalidComparison text))

/-- Reads the SQL text of a connective and refuses any other text. -/
def Connective.read (text : String) : Except Fault Connective :=
  match ofSql? text with
  | some op => .ok op
  | none => .error (.of (.invalidConnective text))

end BoundSql
