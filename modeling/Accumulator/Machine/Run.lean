import Accumulator.Machine.Step

/-!
Runs: steps until there is no progress, within a budget. The budget is looked at only after a step
that made progress, so every run takes one step at least, and the step that halts is never one too
many. A run may go on for ever; here it is cut off by an amount of fuel.
-/

set_option autoImplicit false
set_option relaxedAutoImplicit false

namespace Accumulator

/-- Why a run may not go on after so many steps. -/
def Budget.failure? (budget : Budget) (steps : Nat) : Option Failure :=
  match budget with
  | .unlimited => none
  | .incomparable => some .incomparableLimit
  | .limited limit =>
      if limit.reachedBy steps then some (.ofFault (.stepLimitExceeded limit)) else none

namespace Machine

/-- One step of a run that began when `start` steps were done. There is a result when the run ends:
the number of steps it took, or why it stopped. -/
def runStep (budget : Budget) (start : Nat) (machine : Machine) :
    Machine × Option (Except Failure Nat) :=
  match machine.step with
  | (after, .error failure) => (after, some (.error failure))
  | (after, .ok false) => (after, some (.ok (after.steps - start)))
  | (after, .ok true) => (after, (budget.failure? (after.steps - start)).map .error)

def runFrom (budget : Budget) (start : Nat) : Nat → Machine → Machine × Option (Except Failure Nat)
  | 0, machine => (machine, none)
  | fuel + 1, machine =>
      match machine.runStep budget start with
      | (after, none) => runFrom budget start fuel after
      | ended => ended

/-- Runs a machine. There is no result if the fuel was used up first. -/
def run (fuel : Nat) (budget : Budget) (machine : Machine) :
    Machine × Option (Except Failure Nat) :=
  runFrom budget machine.steps fuel machine

end Machine

end Accumulator
