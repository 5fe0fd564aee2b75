import BoundSql.Decimal.Shortest

/-!
# Decimal notation

How the digits of a double are laid out. A `Style` fixes what differs from
one format to the next: which magnitudes are written positionally and which
with an exponent, whether a whole number is marked as a fraction, and how
what is not a finite number is spelled.
-/

namespace BoundSql.Decimal

/-- The decisions of a format on the text of a double. -/
structure Style where
  /-- Whether a number whose leading digit has this power of ten is written
  positionally; all others have an exponent. -/
  positional : Int → Bool
  /-- What is written after a whole number in positional form. -/
  wholeTail : String
  tie : Tie
  notANumber : String
  infinity : String
  negativeInfinity : String

/-- A run of `n` zeros. -/
def zeros (n : Nat) : List Char := List.replicate n '0'

/-- Digits with a point, and leading or trailing zeros where the point falls outside them. -/
def Scaled.positional (wholeTail : String) (s : Scaled) : String :=
  let digits := (toString s.digits).toList
  let whole := (digits.length : Int) + s.exponent
  if 0 ≤ s.exponent then
    String.ofList (digits ++ zeros s.exponent.toNat) ++ wholeTail
  else if 0 < whole then
    String.ofList (digits.take whole.toNat ++ '.' :: digits.drop whole.toNat)
  else
    "0." ++ String.ofList (zeros (-whole).toNat ++ digits)

/-- The power of ten of the leading digit. -/
def Scaled.leading (s : Scaled) : Int :=
  ((toString s.digits).toList.length : Int) + s.exponent - 1

/-- One digit before the point, the others after it, and a signed power of ten. -/
def Scaled.withExponent (s : Scaled) : String :=
  let digits := (toString s.digits).toList
  let fraction := digits.drop 1
  String.ofList (digits.take 1 ++ if fraction.isEmpty then [] else '.' :: fraction)
    ++ "e" ++ (if s.leading < 0 then "-" else "+") ++ toString s.leading.natAbs

/-- The text of a double in a style, with the fewest digits that read back. -/
def text (style : Style) (x : Float) : String :=
  match magnitude x with
  | .notANumber => style.notANumber
  | .infinite => if isNegative x then style.negativeInfinity else style.infinity
  | .finite b =>
    let s := b.shortest style.tie
    (if isNegative x then "-" else "")
      ++ if style.positional s.leading then s.positional style.wholeTail else s.withExponent

end BoundSql.Decimal
