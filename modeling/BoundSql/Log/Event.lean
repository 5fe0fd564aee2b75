import BoundSql.Value.Basic

/-!
# Events

What the library reports about its work while it runs. Each event has a
level, the part of the library it comes from, and fields of text, of which
the message is one. The events that show a clause or the names that are bound
are details: they are left out unless debugging is on.
-/

namespace BoundSql

/-- How much attention an event asks for. -/
inductive Level where
  | debug
  | trace
  deriving DecidableEq, Repr

/-- The written form of a level. -/
def Level.name : Level → String
  | debug => "DEBUG"
  | trace => "TRACE"

/-- The kinds of statements, with what is reported of each. -/
inductive Built where
  | select (tables length : Nat)
  | count (tables : Nat)
  | update (table : String) (assignments : Nat)
  | insert (table : String) (assignments : Nat)
  | insertRows (table : String) (rows : Nat)
  | delete (table : String)
  deriving DecidableEq, Repr

/-- Something that happened. -/
inductive Event where
  | conditionWritten (position : Nat) (condition : String)
  | clauseCompiled (criteria groups placeholders : Nat)
  | clauseText (sql : String)
  | criterionBound (name : String) (kind : BindType)
  | assignmentBound (name : String)
  | statementBuilt (built : Built)
  deriving DecidableEq, Repr

/-- The name of a bind type in an event. -/
def BindType.eventName : BindType → String
  | null => "Null"
  | bool => "Bool"
  | int => "Int"
  | text => "Str"
  | large => "Lob"

/-- What is reported of a statement. -/
def Built.fields : Built → List (String × String)
  | select tables length =>
    [("kind", "select"), ("tables", toString tables), ("sql_len", toString length)]
  | count tables => [("kind", "count"), ("tables", toString tables)]
  | update table n => [("kind", "update"), ("table", table), ("fields", toString n)]
  | insert table n => [("kind", "insert"), ("table", table), ("fields", toString n)]
  | insertRows table n => [("kind", "batch_insert"), ("table", table), ("rows", toString n)]
  | delete table => [("kind", "delete"), ("table", table)]

namespace Event

/-- Whether an event is left out unless debugging is on. -/
def isDetail : Event → Bool
  | clauseText _ | criterionBound _ _ | assignmentBound _ => true
  | _ => false

/-- The level of an event. -/
def level : Event → Level
  | conditionWritten _ _ | criterionBound _ _ | assignmentBound _ => .trace
  | _ => .debug

/-- The part of the library that an event comes from. -/
def target : Event → String
  | conditionWritten _ _ | clauseCompiled _ _ _ | clauseText _ => "querymaker_query::compiler"
  | criterionBound _ _ | assignmentBound _ => "querymaker_query::binder"
  | statementBuilt _ => "querymaker_query::query"

/-- The message of an event. -/
def message : Event → String
  | conditionWritten _ _ => "compiled criterion"
  | clauseCompiled _ _ _ => "compiled WHERE clause"
  | clauseText _ => "WHERE clause text"
  | criterionBound _ _ => "binding criterion value"
  | assignmentBound _ => "binding field value"
  | statementBuilt _ => "built statement"

/-- The fields of an event besides its message. -/
def details : Event → List (String × String)
  | conditionWritten position condition =>
    [("position", toString position), ("condition", condition)]
  | clauseCompiled criteria groups placeholders =>
    [("criteria", toString criteria), ("groups", toString groups),
      ("placeholders", toString placeholders)]
  | clauseText sql => [("sql", sql)]
  | criterionBound name kind => [("name", name), ("bind_type", kind.eventName)]
  | assignmentBound name => [("name", name)]
  | statementBuilt built => built.fields

/-- All fields of an event. -/
def fields (event : Event) : List (String × String) :=
  ("message", event.message) :: event.details

end Event

end BoundSql
