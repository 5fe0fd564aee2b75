import BoundSql.Json.Basic

/-!
# JSON number literals

A literal is kept as it is written until a value is asked for, because text
that is skipped may hold numbers that are out of range. The value of a
literal without fraction and power is a whole number as long as it fits into
64 bits, signed when negative; `-0` and everything else is a double. Digits
are taken into a significand while it fits into 64 bits. What follows then
only shifts the point (before the point) or is dropped (after it), and the
significand is scaled by powers of ten within the range of doubles.
-/

namespace BoundSql.Json

/-- A number literal, taken apart but not yet read. -/
structure Literal where
  negative : Bool
  whole : List Char
  fraction : List Char
  power : Option Int
  deriving DecidableEq, Repr

/-- The digit that a character stands for. -/
def digitValue (c : Char) : Nat :=
  c.toNat - '0'.toNat

/-- Takes digits into a significand while it fits into 64 bits; the rest is left over. -/
def absorb (significand : Nat) : List Char → Nat × List Char
  | [] => (significand, [])
  | c :: rest =>
    let next := significand * 10 + digitValue c
    if next < Nat.pow 2 64 then absorb next rest else (significand, c :: rest)

/-- The double nearest to `10 ^ n`. -/
def powerOfTen (n : Nat) : Float :=
  Float.ofScientific 1 false n

/-- Scales a double by a power of ten, in steps that stay within the range of
doubles. Nothing comes of a result that is out of range. -/
def scaled (x : Float) (power : Int) : Option Float :=
  if power.natAbs ≤ 308 then
    if 0 ≤ power then
      let y := x * powerOfTen power.natAbs
      if y.isInf then none else some y
    else
      some (x / powerOfTen power.natAbs)
  else if x == 0.0 then
    some x
  else if 0 ≤ power then
    none
  else
    scaled (x / powerOfTen 308) (power + 308)
termination_by power.natAbs
decreasing_by omega

/-- The value of a literal, unless it is out of range. -/
def Literal.value? (literal : Literal) : Option Json :=
  let (significand, left) := absorb 0 literal.whole
  if literal.fraction.isEmpty && literal.power.isNone && left.isEmpty then
    if !literal.negative then
      some (int significand)
    else if significand = 0 ∨ Nat.pow 2 63 < significand then
      some (float (-Float.ofNat significand))
    else
      some (int (-significand))
  else
    let (significand, dropped) := absorb significand literal.fraction
    let shift : Int := left.length - (literal.fraction.length - dropped.length)
    (scaled (Float.ofNat significand) (shift + literal.power.getD 0)).map fun x =>
      float (if literal.negative then -x else x)

end BoundSql.Json
