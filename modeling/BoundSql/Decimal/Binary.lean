/-!
# Binary floating point, taken apart

A finite double is a whole number `mantissa` times a power of two. The reals
that round to it form an interval around it, which reaches half a unit up and
half a unit down; just above a power of two the doubles below are twice as
dense, so there it reaches only a quarter of a unit down. Its ends belong to
it exactly when the mantissa is even, because halves round to even. All of
this is said here in whole numbers, counted in quarters of a unit.
-/

namespace BoundSql.Decimal

/-- The magnitude `mantissa * 2 ^ exponent` of a finite double. -/
structure Binary where
  mantissa : Nat
  exponent : Int
  /-- Whether the doubles just below are twice as dense. -/
  denseBelow : Bool
  deriving DecidableEq, Repr

/-- What the magnitude of a double can be. -/
inductive Magnitude where
  | finite (value : Binary)
  | infinite
  | notANumber
  deriving DecidableEq, Repr

/-- Whether the sign bit of a double is set. -/
def isNegative (x : Float) : Bool :=
  Nat.pow 2 63 ≤ x.toBits.toNat

/-- The magnitude that the exponent and fraction bits of a double stand for. -/
def magnitude (x : Float) : Magnitude :=
  let bits : Nat := x.toBits.toNat
  let power : Nat := bits / Nat.pow 2 52 % 2048
  let fraction : Nat := bits % Nat.pow 2 52
  if power = 2047 then
    if fraction = 0 then .infinite else .notANumber
  else if power = 0 then
    .finite ⟨fraction, -1074, false⟩
  else
    .finite ⟨Nat.pow 2 52 + fraction, (power : Int) - 1075, fraction = 0 && power != 1⟩

namespace Binary

/-- The magnitude in quarters of a unit. -/
def center (b : Binary) : Nat := 4 * b.mantissa

/-- The lower end of the interval that rounds to `b`, in quarters of a unit. -/
def low (b : Binary) : Nat := b.center - if b.denseBelow then 1 else 2

/-- The upper end of the interval that rounds to `b`, in quarters of a unit. -/
def high (b : Binary) : Nat := b.center + 2

/-- The factor by which a count of quarters is multiplied before it is compared
on the grid of multiples of `10 ^ grid`. -/
def up (b : Binary) (grid : Int) : Nat :=
  Nat.pow 2 (b.exponent - 2).toNat * Nat.pow 10 (-grid).toNat

/-- The factor by which a multiple of `10 ^ grid` is multiplied before it is
compared with a count of quarters. -/
def down (b : Binary) (grid : Int) : Nat :=
  Nat.pow 2 (2 - b.exponent).toNat * Nat.pow 10 grid.toNat

/-- Whether `d * 10 ^ grid` rounds to `b`. -/
def holds (b : Binary) (grid : Int) (d : Nat) : Bool :=
  let point := d * b.down grid
  if b.mantissa % 2 = 0 then
    b.low * b.up grid ≤ point && point ≤ b.high * b.up grid
  else
    b.low * b.up grid < point && point < b.high * b.up grid

/-- Whether `b` is below `10 ^ place`. -/
def isBelow (b : Binary) (place : Int) : Bool :=
  b.center * b.up place < b.down place

/-- The number of decimal digits of a positive `b` before the point, which is
negative or zero for fractions. The estimate from the binary length is at
most one too low. -/
def place (b : Binary) : Int :=
  let estimate := ((b.mantissa.log2 : Int) + b.exponent) * 1233 / 4096
  if b.isBelow estimate then estimate
  else if b.isBelow (estimate + 1) then estimate + 1
  else estimate + 2

end Binary

end BoundSql.Decimal
