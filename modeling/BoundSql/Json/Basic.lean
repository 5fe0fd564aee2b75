import BoundSql.Decimal.Notation

/-!
# JSON values and their compact text

The values that JSON text stands for, with whole numbers kept apart from
doubles, and their text without any blanks. A string is written as it is,
except for the quote, the backslash and the characters below the blank.
Numbers that JSON cannot express are written as `null`. Sorting the members
of every object by key, where the last of a repeated key counts, gives each
value one form.
-/

namespace BoundSql

/-- A JSON value, the members of its objects in document order. -/
inductive Json where
  | null
  | bool (b : Bool)
  | int (n : Int)
  | float (x : Float)
  | string (s : String)
  | array (items : List Json)
  | object (members : List (String × Json))

namespace Json

/-- Doubles are positional from `1e-5` up to below `1e16`, where a whole number keeps
a fraction of zero, and ties go to the even digit. -/
def floatStyle : Decimal.Style where
  positional power := -5 ≤ power && power ≤ 15
  wholeTail := ".0"
  tie := .toEven
  notANumber := "null"
  infinity := "null"
  negativeInfinity := "null"

/-- The characters by which a string holds one character. -/
def escaped (c : Char) : List Char :=
  if c = '\x22' then ['\\', '\x22']
  else if c = '\\' then ['\\', '\\']
  else if c = '\x08' then ['\\', 'b']
  else if c = '\x0c' then ['\\', 'f']
  else if c = '\n' then ['\\', 'n']
  else if c = '\r' then ['\\', 'r']
  else if c = '\t' then ['\\', 't']
  else if c.toNat < 0x20 then
    ['\\', 'u', '0', '0', Nat.digitChar (c.toNat / 16), Nat.digitChar (c.toNat % 16)]
  else [c]

/-- A string between quotes. -/
def quotedChars (s : String) : List Char :=
  '\x22' :: s.toList.flatMap escaped ++ ['\x22']

mutual

/-- The compact text of a value. -/
def chars : Json → List Char
  | null => "null".toList
  | bool true => "true".toList
  | bool false => "false".toList
  | int n => (toString n).toList
  | float x => (Decimal.text floatStyle x).toList
  | string s => quotedChars s
  | array items => '[' :: itemChars items ++ [']']
  | object members => '{' :: memberChars members ++ ['}']

/-- The items of an array, with commas between them. -/
def itemChars : List Json → List Char
  | [] => []
  | [item] => item.chars
  | item :: rest => item.chars ++ ',' :: itemChars rest

/-- The members of an object, with commas between them. -/
def memberChars : List (String × Json) → List Char
  | [] => []
  | [(key, value)] => quotedChars key ++ ':' :: value.chars
  | (key, value) :: rest => quotedChars key ++ ':' :: (value.chars ++ ',' :: memberChars rest)

end

/-- The compact text of a value. -/
def text (value : Json) : String :=
  String.ofList value.chars

/-- Puts a member in its place by key; of two with one key the later stays. -/
def insertSorted (key : String) (value : Json) : List (String × Json) → List (String × Json)
  | [] => [(key, value)]
  | member :: rest =>
    if key < member.1 then (key, value) :: member :: rest
    else if key = member.1 then (key, value) :: rest
    else member :: insertSorted key value rest

mutual

/-- The same value with the members of every object sorted by key. -/
def sorted : Json → Json
  | array items => array (sortedItems items)
  | object members => object (sortedMembers [] members)
  | value => value

/-- The items, each with its members sorted. -/
def sortedItems : List Json → List Json
  | [] => []
  | item :: rest => item.sorted :: sortedItems rest

/-- Inserts members, each sorted, into sorted ones. -/
def sortedMembers (done : List (String × Json)) : List (String × Json) → List (String × Json)
  | [] => done
  | (key, value) :: rest => sortedMembers (insertSorted key value.sorted done) rest

end

end Json

end BoundSql
