import Accumulator.Decimal.Binary64

/-!
The shortest decimal text of a number of 64 bits. Of the decimals that are read as the number, the
text shows one with the fewest digits and, of these, the nearest. Decimals of one length lie on a
grid of multiples of a power of ten; the coarsest grid that meets the number's rounding interval is
taken, and of its points only the two around the number need a test.
-/

set_option autoImplicit false
set_option relaxedAutoImplicit false

namespace Accumulator.Decimal

/-- The rounding interval of `mantissa * 2 ^ exponent`, in quarters of a unit of its last place.
Below a power of two the numbers are twice as dense. -/
structure Interval where
  low : Nat
  middle : Nat
  high : Nat
  closed : Bool

def Interval.of (mantissa : Nat) (exponent : Int) : Interval where
  low := 4 * mantissa - if mantissa == Nat.pow 2 52 && exponent > Binary64.minExponent then 1 else 2
  middle := 4 * mantissa
  high := 4 * mantissa + 2
  closed := mantissa % 2 == 0

/-- The point of the grid of multiples of `10 ^ place` that stands for `mantissa * 2 ^ exponent`, if
one does. Both sides are brought to whole numbers before they are compared. -/
def gridPoint? (mantissa : Nat) (exponent place : Int) : Option Nat :=
  let quarter := exponent - 2
  let step := Nat.pow 10 place.toNat * Nat.pow 2 (-quarter).toNat
  let unit := Nat.pow 2 quarter.toNat * Nat.pow 10 (-place).toNat
  let range := Interval.of mantissa exponent
  let inside (point : Nat) : Bool :=
    if range.closed then range.low * unit ≤ point * step && point * step ≤ range.high * unit
    else range.low * unit < point * step && point * step < range.high * unit
  let below := range.middle * unit / step
  let above := below + 1
  let below? := below != 0 && inside below
  let down := range.middle * unit - below * step
  let up := above * step - range.middle * unit
  if below? && inside above then
    some (if down < up || (down == up && below % 2 == 0) then below else above)
  else if below? then some below
  else if inside above then some above
  else none

/-- The places of the last digits that are tried, the highest first: from above the greatest number
down to below the spacing of the least ones. -/
def places : List Int := (List.range 660).map fun (k : Nat) ↦ (310 : Int) - (k : Int)

/-- The shortest decimal of `mantissa * 2 ^ exponent`: its digits and the place of the last one. -/
def shortest (mantissa : Nat) (exponent : Int) : Nat × Int :=
  (places.findSome? fun place ↦ (gridPoint? mantissa exponent place).map (·, place)).getD (0, 0)

/-- Digits before the point, behind it, or around it, for `digits * 10 ^ place`. -/
def positional (digits : List Char) (place : Int) : List Char :=
  if 0 ≤ place then digits ++ List.replicate place.toNat '0' ++ ['.', '0']
  else
    let fraction := (-place).toNat
    if fraction < digits.length then
      digits.take (digits.length - fraction) ++ '.' :: digits.drop (digits.length - fraction)
    else '0' :: '.' :: List.replicate (fraction - digits.length) '0' ++ digits

/-- One digit before the point, and a signed exponent of two digits or more. -/
def scientific (digits : List Char) (exponent : Int) : List Char :=
  let size := Nat.toDigits 10 exponent.natAbs
  let fraction := digits.drop 1
  digits.take 1 ++ (if fraction.isEmpty then [] else '.' :: fraction)
    ++ 'e' :: (if exponent < 0 then '-' else '+') :: List.replicate (2 - size.length) '0' ++ size

/-- Numbers from 0.0001 up to, but not including, 10 ^ 16 are written positionally. -/
def unsignedText (digits : Nat) (place : Int) : List Char :=
  let all := Nat.toDigits 10 digits
  let short := (all.reverse.dropWhile (· == '0')).reverse
  let place := place + (all.length - short.length : Nat)
  let exponent := place + short.length - 1
  if -4 ≤ exponent ∧ exponent < 16 then positional short place else scientific short exponent

def Binary64.text : Binary64 → String
  | .nan => "nan"
  | .infinite negative => if negative then "-inf" else "inf"
  | .finite negative mantissa exponent =>
      let digits :=
        if mantissa == 0 then ['0', '.', '0']
        else
          let (digits, place) := shortest mantissa exponent
          unsignedText digits place
      String.ofList (if negative then '-' :: digits else digits)

end Accumulator.Decimal
