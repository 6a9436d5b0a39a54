import Accumulator.Command.Arguments
import Accumulator.Execution
import Accumulator.Settings.Document

/-!
What a command leaves behind: an exit code, its standard output, the log, and the error that broke
it off if it does not handle that error itself.
-/

set_option autoImplicit false
set_option relaxedAutoImplicit false

namespace Accumulator.Command

/-- An error that ends a command, with the exit code of all such errors. -/
inductive Crash where
  | settings (error : Settings.LoadError)
  | unreadable (path : Path) (error : ReadError)
  | failed (failure : Failure)
  deriving DecidableEq, Repr

structure Report where
  exitCode : Nat
  output : String := ""
  log : List LogRecord := []
  uncaught : Option Crash := none
  deriving DecidableEq, Repr

/-- The message of a fault. Faults that end a command have one. -/
def faultText (fault : Fault) : String := fault.message.toOption.getD ""

/-- The text of a failure. -/
def failureText : Failure → String
  | .fault fault => faultText fault
  | .overlong cause => cause.message
  | .brokenOutput => "the output cannot be written"
  | .brokenTrace => "the trace cannot be written"
  | .incomparableLimit => "the step limit is no number"
  | .interrupt => "interrupt"

/-- The text of an error. -/
def Crash.message : Crash → String
  | .settings (.unreadable path error) | .unreadable path error => error.message path
  | .settings (.invalid error) => error.message?.getD "the settings cannot be used"
  | .failed failure => failureText failure

/-- The exit code of a command line that cannot be understood. -/
def usageCode : Nat := 2

def crashCode : Nat := 1

def Report.ofCrash (crash : Crash) (log : List LogRecord) : Report :=
  { exitCode := crashCode, log, uncaught := some crash }

/-- The report of a command line that cannot be followed. -/
def Report.ofLineError : LineError → Report
  | .usage => { exitCode := usageCode }
  | .unreadable path error => .ofCrash (.unreadable path error) []

end Accumulator.Command
