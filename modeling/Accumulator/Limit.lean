import Accumulator.Decimal.Shortest
import Accumulator.Value

/-!
The limit on the number of steps of a run. A limit may be any number, also a fractional one; what is
no number at all cannot be compared with a count of steps, which shows only once it is compared.
-/

set_option autoImplicit false
set_option relaxedAutoImplicit false

namespace Accumulator

inductive Limit where
  | integer (value : Value)
  | fractional (value : Decimal.Binary64)
  deriving DecidableEq, Repr

namespace Limit

/-- So many steps reach the limit. -/
def reachedBy (limit : Limit) (steps : Nat) : Bool :=
  match limit with
  | .integer value => value.toInt ≤ steps
  | .fractional value => value.atMost steps

@[simp] theorem reachedBy_integer (value : Value) (steps : Nat) :
    (Limit.integer value).reachedBy steps = true ↔ value.toInt ≤ steps := by
  simp [reachedBy]

def text : Limit → Except Numeral.Overlong String
  | .integer value => value.text
  | .fractional value => .ok value.text

end Limit

/-- How many steps a run may take. -/
inductive Budget where
  | unlimited
  | limited (limit : Limit)
  | incomparable
  deriving DecidableEq, Repr

end Accumulator
