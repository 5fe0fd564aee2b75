/-!
# Quoted identifiers

A table name or alias is written between backticks, and a backtick inside it
is doubled, so no name can end its own quotes. Backticks are written by code
point below.
-/

namespace BoundSql.Text

/-- The character that opens and closes a quoted identifier. -/
def backtick : Char := '\x60'

/-- The characters of an identifier as they stand inside quotes. -/
def doubled : List Char → List Char
  | [] => []
  | c :: rest => if c = backtick then c :: c :: doubled rest else c :: doubled rest

/-- An identifier between backticks, with every backtick inside it doubled. -/
def quoted (name : String) : String :=
  String.ofList (backtick :: doubled name.toList ++ [backtick])

end BoundSql.Text
