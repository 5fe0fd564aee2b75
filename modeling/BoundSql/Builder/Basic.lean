import BoundSql.Binding.Delivery
import BoundSql.Clause.Projection
import BoundSql.Registry.Basic

/-!
# Building statements

A `Builder` has the tables of a database at hand and the policy for criteria.
It writes whole statements, each ended by a semicolon, and binds what a
statement expects. A statement is refused when two of its placeholders would
have the same name. Where several things are wrong the checks of the
assignments come first, then the table, then the criteria, and last the names
that assignments share with them; an insertion looks at the names before the
table.
-/

namespace BoundSql

/-- What statements are built from. -/
structure Builder where
  registry : Registry := {}
  policy : SoundPolicy := default
  /-- Whether details are reported too. -/
  debug : Bool := false
  deriving Inhabited

/-! ## Assignments in statements -/

namespace Assignment

/-- What stands for the value of an assignment: its placeholder or its literal. -/
def cell (row : Option Nat) (assignment : Assignment) : String :=
  if assignment.bound then Placeholder.ofAssignment assignment.column row
  else assignment.value.literal

/-- The placeholders of the bound ones of some assignments. -/
def placeholders (row : Option Nat) (assignments : List Assignment) : List String :=
  (assignments.filter Assignment.bound).map fun assignment =>
    Placeholder.ofAssignment assignment.column row

/-- The placeholders of all rows of a batch. -/
def rowPlaceholders (rows : List (List Assignment)) : List String :=
  rows.zipIdx.flatMap fun (row, index) => placeholders (some index) row

/-- The columns of some assignments. -/
def columns (assignments : List Assignment) : List String :=
  assignments.map Assignment.column

/-- The columns as the list in front of the values. -/
def columnList (assignments : List Assignment) : String :=
  "(" ++ ",".intercalate (columns assignments) ++ ")"

/-- The values of a row in parentheses. -/
def tuple (row : Option Nat) (assignments : List Assignment) : String :=
  "(" ++ ",".intercalate (assignments.map (cell row)) ++ ")"

/-- The values of all rows of a batch. -/
def tuples (rows : List (List Assignment)) : String :=
  ",".intercalate (rows.zipIdx.map fun (row, index) => tuple (some index) row)

/-- The settings of an update. -/
def settings (assignments : List Assignment) : String :=
  ", ".intercalate (assignments.map fun assignment =>
    assignment.column ++ " = " ++ assignment.cell none)

/-- Refuses names that are taken or repeated. -/
def claim (operation : String) (taken names : List String) : Except Fault Unit :=
  match firstTaken? taken names with
  | some name => .error ((Fault.of (.placeholderCollision name)).during operation)
  | none => .ok ()

/-- Refuses the first row whose columns are not those of the row before all others. -/
def checkColumns (rows : List (List Assignment)) : Except Fault Unit :=
  match rows with
  | [] => .ok ()
  | first :: _ =>
    match rows.zipIdx.find? fun (row, _) => columns row != columns first with
    | some (_, index) => .error (.of (.inconsistentBatchRow index))
    | none => .ok ()

end Assignment

/-! ## Statements -/

namespace Builder

/-- The clause of criteria under the policy of a builder. -/
def clause (builder : Builder) (criteria : List Criterion) : Trace Where :=
  Where.compileTraced builder.debug builder.policy.policy criteria

/-- Reports a statement and gives its text. -/
def built (sql : String) (kind : Built) : Trace String := do
  Trace.report [.statementBuilt kind]
  pure sql

/-- Selects columns from all tables. -/
def select (builder : Builder) (criteria : List Criterion) (projection : Projection)
    (order : Option String) (page : Page) : Trace String := do
  let selection ← Trace.ofExcept (builder.registry.selectFrom projection.sql)
  let clause ← builder.clause criteria
  let sql := selection ++ clause.sql ++ orderBy order ++ page.clause ++ ";"
  built sql (.select builder.registry.size sql.utf8ByteSize)

/-- Counts the rows of all tables. -/
def count (builder : Builder) (criteria : List Criterion) : Trace String := do
  let selection ← Trace.ofExcept (builder.registry.selectFrom "COUNT(*)")
  let clause ← builder.clause criteria
  built (selection ++ clause.sql ++ ";") (.count builder.registry.size)

/-- Updates the primary table. -/
def update (builder : Builder) (criteria : List Criterion) (assignments : List Assignment)
    (page : Page) : Trace String := do
  if assignments.isEmpty then
    throw (.of (.emptyAssignments "updateQuery"))
  let table ← Trace.ofExcept builder.registry.primary
  let clause ← builder.clause criteria
  Trace.ofExcept (Assignment.claim "updateQuery" (clause.names ++ page.names)
    (Assignment.placeholders none assignments))
  built ("UPDATE " ++ table.quotedName ++ " SET " ++ Assignment.settings assignments
    ++ clause.sql ++ page.clause ++ ";") (.update table.name assignments.length)

/-- Inserts one row into the primary table. -/
def insert (builder : Builder) (assignments : List Assignment) : Trace String := do
  if assignments.isEmpty then
    throw (.of (.emptyAssignments "insertQuery"))
  Trace.ofExcept (Assignment.claim "insertQuery" [] (Assignment.placeholders none assignments))
  let table ← Trace.ofExcept builder.registry.primary
  built ("INSERT INTO " ++ table.quotedName ++ " " ++ Assignment.columnList assignments
    ++ " VALUES " ++ Assignment.tuple none assignments ++ ";")
    (.insert table.name assignments.length)

/-- Refuses the rows of a batch that do not go together or share a placeholder. -/
def checkRows (operation : String) (rows : List (List Assignment)) : Except Fault Unit := do
  Assignment.checkColumns rows
  Assignment.claim operation [] (Assignment.rowPlaceholders rows)

/-- Inserts rows into the primary table; all must have the columns of the first. -/
def insertRows (builder : Builder) (rows : List (List Assignment)) : Trace String := do
  let first := rows.headD []
  if first.isEmpty then
    throw (.of (.emptyAssignments "batchInsertQuery"))
  Trace.ofExcept (checkRows "batchInsertQuery" rows)
  let table ← Trace.ofExcept builder.registry.primary
  built ("INSERT INTO " ++ table.quotedName ++ " " ++ Assignment.columnList first
    ++ " VALUES " ++ Assignment.tuples rows ++ ";")
    (.insertRows table.name rows.length)

/-- Deletes rows of the primary table. -/
def delete (builder : Builder) (criteria : List Criterion) (page : Page) : Trace String := do
  let table ← Trace.ofExcept builder.registry.primary
  let clause ← builder.clause criteria
  built ("DELETE FROM " ++ table.quotedName ++ clause.sql ++ page.clause ++ ";")
    (.delete table.name)

/-! ## Bindings of statements -/

variable {σ : Type} [Prepared σ]

/-- Binds the criteria, the assignments and the page of a statement. -/
def bindValues (builder : Builder) (criteria : List Criterion) (assignments : List Assignment)
    (page : Page) (statement : σ) : Delivery σ :=
  (bindCriteria builder.debug builder.policy.policy criteria statement).andThen fun statement =>
    (bindAssignments builder.debug none assignments statement).andThen
      (bindPage builder.debug page)

/-- Binds the criteria, the rows of a batch and the page of a statement. -/
def bindBatch (builder : Builder) (criteria : List Criterion) (rows : List (List Assignment))
    (page : Page) (statement : σ) : Delivery σ :=
  if rows.isEmpty then
    .nothing (.error (.of (.emptyAssignments "batchBindValues"))) statement
  else
    match checkRows "batchBindValues" rows with
    | .error fault => .nothing (.error fault) statement
    | .ok () =>
      (bindCriteria builder.debug builder.policy.policy criteria statement).andThen fun statement =>
        (bindRows builder.debug rows statement).andThen (bindPage builder.debug page)

end Builder

end BoundSql
