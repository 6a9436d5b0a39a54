/-!
Numbers of 64 bits with a binary point, held exactly as a mantissa and a power of two, so that
comparing them and reading them from decimals is plain arithmetic on integers. A decimal is read
as the nearest such number, a tie going to the even mantissa.
-/

set_option autoImplicit false
set_option relaxedAutoImplicit false

namespace Accumulator.Decimal

/-- A finite number is `mantissa * 2 ^ exponent`, its mantissa filling 53 bits unless the exponent
is the least one. -/
inductive Binary64 where
  | nan
  | infinite (negative : Bool)
  | finite (negative : Bool) (mantissa : Nat) (exponent : Int)
  deriving DecidableEq, Repr

/-- The integer nearest to a quotient, the even one of two. -/
def roundQuotient (num den : Nat) : Nat :=
  let q := num / den
  let twice := 2 * (num % den)
  if twice < den || (twice == den && q % 2 == 0) then q else q + 1

theorem roundQuotient_within (num den : Nat) (h : 0 < den) :
    2 * num ≤ (2 * roundQuotient num den + 1) * den ∧
      2 * roundQuotient num den * den ≤ 2 * num + den := by
  have hdiv := Nat.div_add_mod num den
  have hmod := Nat.mod_lt num h
  unfold roundQuotient
  generalize num / den = q at *
  generalize num % den = r at *
  subst hdiv
  dsimp only
  split
  · rename_i hc
    constructor <;> grind
  · constructor <;> grind

namespace Binary64

def minExponent : Int := -1074

def maxExponent : Int := 971

/-- The quotient `num / den` measured in units of `2 ^ exponent`, rounded. -/
def inUnits (num den : Nat) (exponent : Int) : Nat :=
  roundQuotient (num * Nat.pow 2 (-exponent).toNat) (den * Nat.pow 2 exponent.toNat)

/-- The exponent with which `num / den` fills 53 bits, or the least one for smaller quotients. The
lengths of the two numbers leave two candidates. -/
def exponentOf (num den : Nat) : Int :=
  let guess : Int := (num.log2 : Int) - den.log2 - 52
  let short := num * Nat.pow 2 (-guess).toNat < Nat.pow 2 52 * (den * Nat.pow 2 guess.toNat)
  max (if short then guess - 1 else guess) minExponent

/-- The number nearest to `num / den`, with the given sign. -/
def ofRatio (negative : Bool) (num den : Nat) : Binary64 :=
  let exponent := exponentOf num den
  let mantissa := inUnits num den exponent
  let (mantissa, exponent) :=
    if mantissa == Nat.pow 2 53 then (Nat.pow 2 52, exponent + 1) else (mantissa, exponent)
  if exponent > maxExponent then .infinite negative else .finite negative mantissa exponent

/-- The number nearest to `digits * 10 ^ exponent`, with the given sign. A decimal whose leading
digit stands far outside the range of these numbers is told apart by its length alone. -/
def ofDecimal (negative : Bool) (digits : Nat) (exponent : Int) : Binary64 :=
  let leading := ((Nat.toDigits 10 digits).length : Int) + exponent
  if digits == 0 || leading < -400 then .finite negative 0 minExponent
  else if leading > 400 then .infinite negative
  else ofRatio negative (digits * Nat.pow 10 exponent.toNat) (Nat.pow 10 (-exponent).toNat)

/-- The number is at most `n`. -/
def atMost (x : Binary64) (n : Nat) : Bool :=
  match x with
  | .nan => false
  | .infinite negative => negative
  | .finite negative mantissa exponent =>
      negative || mantissa * Nat.pow 2 exponent.toNat ≤ n * Nat.pow 2 (-exponent).toNat

end Binary64

end Accumulator.Decimal
