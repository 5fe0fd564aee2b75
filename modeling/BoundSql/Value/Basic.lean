import BoundSql.Decimal.Notation

/-!
# Values

What a column is compared with or set to, and how a value is sent to a
prepared statement. A value that is not bound is written into the statement
as a literal: texts stand there as they are, so that a caller can pass an
expression, and the items of a list are joined by commas, however deep.
-/

namespace BoundSql

/-- A value compared with a column or assigned to one. -/
inductive Value where
  | null
  | bool (b : Bool)
  | int (n : Int64)
  | float (x : Float)
  | text (s : String)
  | list (items : List Value)
  deriving Inhabited

/-- How a bound value is transmitted. -/
inductive BindType where
  | null
  | bool
  | int
  | text
  | large
  deriving DecidableEq, Repr, Inhabited

namespace BindType

/-- Every bind type, in the order in which they are listed to a user. -/
def all : List BindType := [null, bool, int, text, large]

/-- The short name of a bind type. -/
def name : BindType → String
  | null => "null"
  | bool => "bool"
  | int => "int"
  | text => "str"
  | large => "lob"

end BindType

namespace Value

/-- Whether a value is null. -/
def isNull : Value → Bool
  | null => true
  | _ => false

/-- Whether a value is a list. -/
def isList : Value → Bool
  | list _ => true
  | _ => false

/-- The bind type taken where none is given: whole numbers are sent as such,
everything else as text. -/
def bindType : Value → BindType
  | int _ => .int
  | _ => .text

/-- Doubles in a statement are always positional, and a whole number has no point. -/
def floatStyle : Decimal.Style where
  positional _ := true
  wholeTail := ""
  tie := .upward
  notANumber := "NaN"
  infinity := "inf"
  negativeInfinity := "-inf"

mutual

/-- The text of a value that is written into the statement. -/
def literal : Value → String
  | null => "NULL"
  | bool true => "1"
  | bool false => "0"
  | int n => toString n.toInt
  | float x => Decimal.text floatStyle x
  | text s => s
  | list items => ",".intercalate (literals items)

/-- The texts of the items of a list. -/
def literals : List Value → List String
  | [] => []
  | item :: rest => item.literal :: literals rest

end

end Value

end BoundSql
