import Accumulator.Toml.Value

/-!
The order of scalar values. Texts are ordered by code points, numbers by their size, truth values
counting as 0 and 1, and moments by time. Values of different sorts have no order.
-/

set_option autoImplicit false
set_option relaxedAutoImplicit false

namespace Accumulator.Toml

/-- What a scalar is compared by. A finite number is `mantissa * 2 ^ exponent`. -/
inductive Rank where
  | text (text : String)
  | finite (mantissa exponent : Int)
  | infinite (negative : Bool)
  | noNumber
  | moment (sort : Nat) (time : Int)
  deriving DecidableEq, Repr

namespace Rank

/-- Only ranks of one sort are comparable. -/
def sort : Rank → Nat
  | .text _ => 0
  | .finite .. | .infinite _ | .noNumber => 1
  | .moment sort _ => 2 + sort

def less : Rank → Rank → Bool
  | .text a, .text b => a < b
  | .finite m e, .finite n f =>
      let low := min e f
      m * Nat.pow 2 (e - low).toNat < n * Nat.pow 2 (f - low).toNat
  | .infinite negative, .finite .. => negative
  | .finite .., .infinite negative => !negative
  | .infinite a, .infinite b => a && !b
  | .moment _ a, .moment _ b => a < b
  | _, _ => false

/-- The two ranks stand for the same value. What is no number equals nothing. -/
def same (a b : Rank) : Bool :=
  a.sort == b.sort && a != .noNumber && b != .noNumber && !a.less b && !b.less a

end Rank

/-- Collections have no rank. -/
def Value.rank? : Value → Option Rank
  | .string text => some (.text text)
  | .integer n => some (.finite n 0)
  | .boolean b => some (.finite (if b then 1 else 0) 0)
  | .float .nan => some .noNumber
  | .float (.infinite negative) => some (.infinite negative)
  | .float (.finite negative mantissa exponent) =>
      some (.finite (if negative then -mantissa else mantissa) exponent)
  | .moment m => some (.moment m.order.1 m.order.2)
  | .array _ | .table _ => none

/-- Ranked values without those that equal an earlier one. -/
def distinct (done : List (Rank × Value)) : List (Rank × Value) → List (Rank × Value)
  | [] => done.reverse
  | entry :: rest =>
      if done.any fun earlier ↦ earlier.1.same entry.1 then distinct done rest
      else distinct (entry :: done) rest

/-- The values of a list in order, if all of them can be compared. -/
def sorted? (entries : List (Rank × Value)) : Option (List Value) :=
  match entries with
  | [] => some []
  | first :: rest =>
      if rest.all fun entry ↦ entry.1.sort == first.1.sort then
        some ((entries.mergeSort fun a b ↦ !b.1.less a.1).map Prod.snd)
      else none

end Accumulator.Toml
