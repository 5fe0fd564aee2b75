import BoundSql.Decimal.Binary

/-!
# The fewest digits that read back

Among the decimals that round to a given double, one with the fewest digits
is chosen, and of those the nearest. For 1, 2, … 17 digits the two neighbours
of the double on the grid of such decimals are tried: if any point of a grid
rounds to the double then so does one of these two, and seventeen digits are
always enough. Two neighbours that are equally near are told apart by a
`Tie`.
-/

namespace BoundSql.Decimal

/-- The number `digits * 10 ^ exponent`. -/
structure Scaled where
  digits : Nat
  exponent : Int
  deriving DecidableEq, Repr

/-- Which of two equally near decimals is taken. -/
inductive Tie where
  | toEven
  | upward
  deriving DecidableEq, Repr

/-- Whether the upper of two equally near neighbours, `d` and `d + 1`, is taken. -/
def Tie.takesUpper (tie : Tie) (d : Nat) : Bool :=
  match tie with
  | .toEven => d % 2 = 1
  | .upward => true

namespace Binary

/-- The multiple of `10 ^ grid` nearest to `b` among its neighbours that round to `b`. -/
def nearest? (tie : Tie) (b : Binary) (grid : Int) : Option Nat :=
  let point := b.center * b.up grid
  let unit := b.down grid
  let d := point / unit
  match b.holds grid d, b.holds grid (d + 1) with
  | false, false => none
  | true, false => some d
  | false, true => some (d + 1)
  | true, true =>
    match compare (2 * (point % unit)) unit with
    | .lt => some d
    | .gt => some (d + 1)
    | .eq => some (if tie.takesUpper d then d + 1 else d)

/-- The decimal with the fewest digits that rounds to `b`. -/
def shortest (tie : Tie) (b : Binary) : Scaled :=
  if b.mantissa = 0 then
    ⟨0, 0⟩
  else
    let grids := (List.range 17).map fun (i : Nat) => b.place - 1 - i
    match grids.findSome? fun grid => (b.nearest? tie grid).map fun d => Scaled.mk d grid with
    | some ⟨d, grid⟩ => if d % 10 = 0 then ⟨d / 10, grid + 1⟩ else ⟨d, grid⟩
    | none => ⟨b.center * b.up (b.place - 17) / b.down (b.place - 17), b.place - 17⟩

end Binary

end BoundSql.Decimal
