/-!
# Hexadecimal digits

The digits by which escapes name code points, in either letter case.
-/

namespace BoundSql.Text

/-- The value of a hexadecimal digit. -/
def hexValue? (c : Char) : Option Nat :=
  if c.isDigit then some (c.toNat - '0'.toNat)
  else if 'a' ≤ c ∧ c ≤ 'f' then some (c.toNat - 'a'.toNat + 10)
  else if 'A' ≤ c ∧ c ≤ 'F' then some (c.toNat - 'A'.toNat + 10)
  else none

/-- The number that hexadecimal digits stand for, if they all are digits. -/
def hexNumber? (digits : List Char) : Option Nat :=
  digits.foldl (fun n c => do pure ((← n) * 16 + (← hexValue? c))) (some 0)

end BoundSql.Text
