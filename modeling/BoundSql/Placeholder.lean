import BoundSql.Text.Quoted

/-!
# Placeholder names

A placeholder is a colon followed by letters, digits and underscores of
ASCII. Its stem comes from a column: backticks are dropped and every other
character that a bind identifier cannot hold becomes an underscore. What
follows the stem keeps the placeholders of one statement apart: a criterion
adds its position in the list, an element of a list its index after that, and
a cell of a batch its row. Columns that differ only in the characters that
are dropped or replaced share a stem.
-/

namespace BoundSql.Placeholder

/-- The characters of which a bind identifier is made. -/
def isWordChar (c : Char) : Bool :=
  c.isAlphanum || c == '_'

/-- A character of a column as it stands in a bind identifier. -/
def wordChar (c : Char) : Char :=
  if isWordChar c then c else '_'

/-- The part of a placeholder that a column determines. -/
def stem (column : String) : String :=
  String.ofList ((column.toList.filter (· != Text.backtick)).map wordChar)

/-- The placeholder of the single value of the criterion at `position`. -/
def ofCriterion (column : String) (position : Nat) : String :=
  ":" ++ stem column ++ toString position

/-- The placeholder of the list element at `index`, counted from 0, of a criterion. -/
def ofElement (column : String) (position index : Nat) : String :=
  ":" ++ stem column ++ toString position ++ toString index

/-- The placeholder of an assignment, which in a batch carries its row, counted from 0. -/
def ofAssignment (column : String) (row : Option Nat) : String :=
  match row with
  | some row => ":" ++ stem column ++ toString row
  | none => ":" ++ stem column

/-- The placeholder of the number of rows to skip. -/
def start : String := ":start"

/-- The placeholder of the number of rows to return. -/
def limit : String := ":limit"

/-- Whatever stands in a column, a bind identifier can hold what becomes of it. -/
theorem isWordChar_wordChar (c : Char) : isWordChar (wordChar c) = true := by
  unfold wordChar
  split
  · assumption
  · decide

end BoundSql.Placeholder
