/-!
Integers as decimal text, in both directions. A numeral has at most `maxDigits` digits: a longer
text is refused before it is read, and an integer that needs more digits has no text. The limit
binds texts only, so arithmetic is never cut short.
-/

set_option autoImplicit false
set_option relaxedAutoImplicit false

namespace Accumulator.Numeral

/-- The most digits that the text of an integer may have, the sign not counted. -/
def maxDigits : Nat := 4300

/-- The least natural number that has no text. -/
def bound : Nat := Nat.pow 10 maxDigits

theorem lt_bound_of_lt_pow {n k : Nat} (h : n < Nat.pow 10 k) (hk : k ≤ maxDigits) : n < bound := by
  unfold bound
  generalize maxDigits = digits at hk ⊢
  exact Nat.lt_of_lt_of_le h (Nat.pow_le_pow_right (by decide) hk)

/-- Why an integer and a text could not be turned into one another. -/
inductive Overlong where
  | reading (digits : Nat)
  | writing
  deriving DecidableEq, Repr

def Overlong.message : Overlong → String
  | .reading digits =>
      s!"Exceeds the limit ({maxDigits} digits) for integer string conversion: "
        ++ s!"value has {digits} digits; use sys.set_int_max_str_digits() to increase the limit"
  | .writing =>
      s!"Exceeds the limit ({maxDigits} digits) for integer string conversion; "
        ++ "use sys.set_int_max_str_digits() to increase the limit"

/-- The decimal text of an integer that is short enough to have one. -/
def text (n : Int) : Except Overlong String :=
  if n.natAbs < bound then .ok (toString n) else .error .writing

theorem text_eq_ok_iff (n : Int) (s : String) :
    text n = .ok s ↔ n.natAbs < bound ∧ s = toString n := by
  unfold text
  split <;> grind

theorem text_eq_error_iff (n : Int) (e : Overlong) :
    text n = .error e ↔ bound ≤ n.natAbs ∧ e = .writing := by
  unfold text
  split <;> grind

/-- An ASCII decimal digit. -/
def isDigit (c : Char) : Bool := '0' ≤ c && c ≤ '9'

/-- The number that a row of digits denotes, most significant digit first. -/
def ofDigits (digits : List Char) : Nat :=
  digits.foldl (fun n c ↦ 10 * n + (c.toNat - '0'.toNat)) 0

/-- The number that a row of digits denotes, leading zeros counting towards its length. -/
def read (digits : List Char) : Except Overlong Nat :=
  if digits.length ≤ maxDigits then .ok (ofDigits digits) else .error (.reading digits.length)

theorem read_eq_ok_iff (digits : List Char) (n : Nat) :
    read digits = .ok n ↔ digits.length ≤ maxDigits ∧ n = ofDigits digits := by
  unfold read
  split <;> grind

/-- The sign and the digits of a text that is an optional sign before one digit or more. -/
def split? (token : List Char) : Option (Bool × List Char) :=
  let (negative, digits) := match token with
    | '-' :: rest => (true, rest)
    | '+' :: rest => (false, rest)
    | rest => (false, rest)
  if !digits.isEmpty && digits.all isDigit then some (negative, digits) else none

/-- The integer with the given sign and magnitude. -/
def signed (negative : Bool) (n : Nat) : Int := if negative then -n else n

/-- The digits that continue a number, each with an underscore before it or not, behind those read
already, which are in reverse. -/
def moreGrouped (isDigit : Char → Bool) (done : List Char) : List Char → List Char × List Char
  | '_' :: c :: rest =>
      if isDigit c then moreGrouped isDigit (c :: done) rest else (done.reverse, '_' :: c :: rest)
  | c :: rest =>
      if isDigit c then moreGrouped isDigit (c :: done) rest else (done.reverse, c :: rest)
  | [] => (done.reverse, [])

/-- One digit or more, in groups that underscores separate, and what follows them. -/
def grouped? (isDigit : Char → Bool) : List Char → Option (List Char × List Char)
  | c :: rest => if isDigit c then some (moreGrouped isDigit [c] rest) else none
  | [] => none

end Accumulator.Numeral
