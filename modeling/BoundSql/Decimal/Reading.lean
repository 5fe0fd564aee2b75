/-!
# Reading decimals

The double nearest to a decimal text: an optional sign, digits with an
optional point and an optional power of ten, or one of the words for infinity
and for what is not a number, in any letter case. At least one digit must
stand before or after the point.
-/

namespace BoundSql.Decimal

/-- The value of a list of decimal digits. -/
def digitsValue (digits : List Char) : Nat :=
  digits.foldl (fun n c => 10 * n + (c.toNat - '0'.toNat)) 0

/-- A power of ten, which is 0 where none is written. -/
def readPower? : List Char → Option Int
  | [] => some 0
  | mark :: rest =>
    if mark = 'e' ∨ mark = 'E' then
      let (negative, digits) := match rest with
        | '-' :: r => (true, r)
        | '+' :: r => (false, r)
        | r => (false, r)
      if digits.isEmpty || !digits.all Char.isDigit then none
      else
        let n : Int := digitsValue digits
        some (if negative then -n else n)
    else none

/-- The double nearest to `digits * 10 ^ power`. Beyond `10 ^ 400` there is only
infinity and below `10 ^ -400` only zero, so larger powers are not computed. -/
def nearestFloat (digits : Nat) (power : Int) : Float :=
  let leading := ((toString digits).length : Int) + power
  if digits = 0 ∨ leading < -400 then 0.0
  else if 400 < leading then 1.0 / 0.0
  else if power < 0 then Float.ofScientific digits true power.natAbs
  else Float.ofScientific digits false power.natAbs

/-- The magnitude of a decimal without its sign. -/
def readMagnitude? (text : List Char) : Option Float :=
  let lower := String.ofList (text.map Char.toLower)
  if lower = "inf" ∨ lower = "infinity" then some (1.0 / 0.0)
  else if lower = "nan" then some (0.0 / 0.0)
  else
    let whole := text.takeWhile Char.isDigit
    let (fraction, rest) := match text.dropWhile Char.isDigit with
      | '.' :: r => (r.takeWhile Char.isDigit, r.dropWhile Char.isDigit)
      | r => ([], r)
    if whole.isEmpty && fraction.isEmpty then none
    else (readPower? rest).map fun power =>
      nearestFloat (digitsValue (whole ++ fraction)) (power - fraction.length)

/-- The double nearest to a decimal text. -/
def read? (text : String) : Option Float :=
  match text.toList with
  | '-' :: rest => (readMagnitude? rest).map (- ·)
  | '+' :: rest => readMagnitude? rest
  | rest => readMagnitude? rest

end BoundSql.Decimal
