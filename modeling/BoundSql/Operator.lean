/-!
# Operators

The two closed sets of operators a condition can use: a `Comparison` stands
between a column and its value, a `Connective` joins a condition to the one
before it. Both are written as fixed SQL texts, and `ofSql?` reads exactly
those texts back: letter case and inner blanks count, and nothing falls back
to a default.
-/

namespace BoundSql

/-- What stands between a column and its value. -/
inductive Comparison where
  | like
  | notLike
  | equal
  | notEqual
  | lessGreater
  | less
  | lessEqual
  | greater
  | greaterEqual
  | nullSafeEqual
  | isNot
  | is
  | isNotNull
  | isNull
  | isIn
  | notIn
  deriving DecidableEq, Repr, Inhabited

namespace Comparison

/-- Every comparison, in the order in which they are listed to a user. -/
def all : List Comparison :=
  [like, notLike, equal, notEqual, lessGreater, less, lessEqual, greater, greaterEqual,
    nullSafeEqual, isNot, is, isNotNull, isNull, isIn, notIn]

/-- The SQL text of a comparison. -/
def sql : Comparison → String
  | like => "LIKE"
  | notLike => "NOT LIKE"
  | equal => "="
  | notEqual => "!="
  | lessGreater => "<>"
  | less => "<"
  | lessEqual => "<="
  | greater => ">"
  | greaterEqual => ">="
  | nullSafeEqual => "<=>"
  | isNot => "IS NOT"
  | is => "IS"
  | isNotNull => "IS NOT NULL"
  | isNull => "IS NULL"
  | isIn => "IN"
  | notIn => "NOT IN"

/-- Whether the comparison looks at a bound value; the two null tests stand alone. -/
def takesValue : Comparison → Bool
  | isNull | isNotNull => false
  | _ => true

/-- Whether the comparison is written with a parenthesised list of placeholders. -/
def takesList : Comparison → Bool
  | isIn | notIn => true
  | _ => false

/-- The comparison written as `text`, if there is one. -/
def ofSql? (text : String) : Option Comparison :=
  all.find? (·.sql == text)

/-- No comparison is left out of the list. -/
theorem mem_all (op : Comparison) : op ∈ all := by
  cases op <;> decide

/-- The written form of a comparison is read as that comparison. -/
theorem ofSql?_sql (op : Comparison) : ofSql? op.sql = some op := by
  cases op <;> decide

/-- A text is read as a comparison only if it is the written form of it. -/
theorem sql_of_ofSql? {text : String} {op : Comparison} (h : ofSql? text = some op) :
    op.sql = text := by
  simpa using List.find?_some h

end Comparison

/-- What joins a condition to the one before it. -/
inductive Connective where
  | and
  | or
  | xor
  | not
  deriving DecidableEq, Repr, Inhabited

namespace Connective

/-- Every connective, in the order in which they are listed to a user. -/
def all : List Connective := [and, or, xor, not]

/-- The SQL text of a connective. -/
def sql : Connective → String
  | and => "AND"
  | or => "OR"
  | xor => "XOR"
  | not => "NOT"

/-- The connective written as `text`, if there is one. -/
def ofSql? (text : String) : Option Connective :=
  all.find? (·.sql == text)

theorem mem_all (op : Connective) : op ∈ all := by
  cases op <;> decide

theorem ofSql?_sql (op : Connective) : ofSql? op.sql = some op := by
  cases op <;> decide

theorem sql_of_ofSql? {text : String} {op : Connective} (h : ofSql? text = some op) :
    op.sql = text := by
  simpa using List.find?_some h

end Connective

end BoundSql
