import BoundSql.Text.Hidden

/-!
# Visible quotation

A text between double quotes in which nothing is hidden: quotes, backslashes
and the usual control characters have short escapes, and every other
character that cannot be seen is written by its code point in hexadecimal.
-/

namespace BoundSql.Text

/-- The characters by which a visible quotation shows one character. -/
def shown (c : Char) : List Char :=
  if c = '\x22' then ['\\', '\x22']
  else if c = '\\' then ['\\', '\\']
  else if c = '\x00' then ['\\', '0']
  else if c = '\n' then ['\\', 'n']
  else if c = '\r' then ['\\', 'r']
  else if c = '\t' then ['\\', 't']
  else if isHidden c then
    ['\\', 'u', '\x7b'] ++ Nat.toDigits 16 c.toNat ++ ['\x7d']
  else [c]

/-- A text between double quotes, with everything in it visible. -/
def visiblyQuoted (s : String) : String :=
  String.ofList ('\x22' :: s.toList.flatMap shown ++ ['\x22'])

end BoundSql.Text
