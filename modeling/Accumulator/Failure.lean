import Accumulator.Fault

/-!
Why assembling or running a program ends without a result: a fault of the program, an integer that
is too long for a text, or a failure of what the machine works with.
-/

set_option autoImplicit false
set_option relaxedAutoImplicit false

namespace Accumulator

inductive Failure where
  | fault (fault : Fault)
  | overlong (cause : Numeral.Overlong)
  | brokenOutput
  | brokenTrace
  | incomparableLimit
  | interrupt
  deriving DecidableEq, Repr

namespace Failure

/-- A fault whose message cannot be written ends the work for that reason instead. -/
def ofFault (fault : Fault) : Failure :=
  match fault.message with
  | .ok _ => .fault fault
  | .error cause => .overlong cause

/-- There was no token left. -/
def isEndOfInput : Failure → Bool
  | .fault (.inputParseError none) => true
  | _ => false

end Failure

end Accumulator
