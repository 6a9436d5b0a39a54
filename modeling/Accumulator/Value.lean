import Accumulator.Numeral

/-!
What a register holds: an integer, or a truth value. A truth value counts as 1 or 0 wherever a
number is wanted and keeps its own text until arithmetic replaces it.
-/

set_option autoImplicit false
set_option relaxedAutoImplicit false

namespace Accumulator

inductive Value where
  | int (n : Int)
  | bool (b : Bool)
  deriving DecidableEq, Repr

namespace Value

instance : Inhabited Value := ⟨.int 0⟩

/-- The number that a value counts as. -/
def toInt : Value → Int
  | .int n => n
  | .bool true => 1
  | .bool false => 0

@[simp] theorem toInt_int (n : Int) : (Value.int n).toInt = n := rfl

def text : Value → Except Numeral.Overlong String
  | .int n => Numeral.text n
  | .bool true => .ok "True"
  | .bool false => .ok "False"

/-- The value in the range `0 .. size - 1`, as a position. -/
def index? (v : Value) (size : Nat) : Option Nat :=
  if 0 ≤ v.toInt ∧ v.toInt < size then some v.toInt.toNat else none

theorem index?_eq_some_iff (v : Value) (size i : Nat) :
    v.index? size = some i ↔ v.toInt = i ∧ i < size := by
  unfold index?
  split <;> simp <;> omega

theorem index?_eq_none_iff (v : Value) (size : Nat) :
    v.index? size = none ↔ v.toInt < 0 ∨ size ≤ v.toInt := by
  unfold index?
  split <;> simp <;> omega

/-- The two values count as the same number. -/
def sameNumber (v w : Value) : Bool := v.toInt == w.toInt

end Value

end Accumulator
