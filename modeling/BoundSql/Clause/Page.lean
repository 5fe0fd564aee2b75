import BoundSql.Json.Decode
import BoundSql.Plan

/-!
# Pages

Which rows of a result are returned. Zero stands for absent, both for the
rows to skip and for the rows to return, and rows are skipped only where the
number to return is given. The clause, its names and what is bound for it are
worked out apart, each by asking the same two questions.
-/

namespace BoundSql

/-- The rows to skip and the rows to return; zero is absent. -/
structure Page where
  start : UInt64 := 0
  limit : UInt64 := 0
  deriving DecidableEq, Repr, Inhabited

namespace Page

/-- Whether there is no clause. -/
def isEmpty (page : Page) : Bool := page.limit == 0

/-- Whether the clause skips rows. -/
def hasStart (page : Page) : Bool := page.start != 0 && page.limit != 0

/-- The text of the clause. -/
def clause (page : Page) : String :=
  if page.hasStart then " LIMIT " ++ Placeholder.start ++ ", " ++ Placeholder.limit
  else if page.isEmpty then ""
  else " LIMIT " ++ Placeholder.limit

/-- A number of rows as a value, which ends at the largest one with a sign. -/
def rowCount (n : UInt64) : Value :=
  .int (Int64.ofNat (min n.toNat (Nat.pow 2 63 - 1)))

/-- What the clause expects to be bound. -/
def bindings (page : Page) : List Binding :=
  (if page.hasStart then [⟨Placeholder.start, rowCount page.start, .int⟩] else [])
    ++ if page.isEmpty then [] else [⟨Placeholder.limit, rowCount page.limit, .int⟩]

/-- The names that the clause uses, which an update keeps clear of. -/
def names (page : Page) : List String :=
  (if page.hasStart then [Placeholder.start] else [])
    ++ if page.isEmpty then [] else [Placeholder.limit]

/-- The clause uses the names that are bound for it. -/
theorem map_name_bindings (page : Page) : page.bindings.map Binding.name = page.names := by
  unfold bindings names
  cases page.hasStart <;> cases page.isEmpty <;> rfl

/-- The members of a page. -/
inductive Member where
  | start
  | limit
  deriving DecidableEq, Repr

/-- How a page is written as JSON. -/
def shape : Json.Shape Member where
  title := "struct Pagination"
  fields := [.start, .limit]
  label
    | .start => "start"
    | .limit => "limit"
  required _ := true

/-- Sets a member of a page. -/
def setMember : Json.FieldDecoder Member Page
  | room, page, .start, doc => do pure { page with start := ← Json.Decoder.word room doc }
  | room, page, .limit, doc => do pure { page with limit := ← Json.Decoder.word room doc }

/-- Reads a page from JSON text. -/
def read (source : String) : Json.Decoded Page :=
  Json.decode (shape.decoder {} setMember) source

/-- The JSON value of a page. -/
def toJson (page : Page) : Json :=
  .object [("start", .int page.start.toNat), ("limit", .int page.limit.toNat)]

end Page

end BoundSql
