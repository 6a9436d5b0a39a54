import Accumulator.Loading
import Accumulator.Settings

/-!
Executing a program under settings, at a console. A program that cannot be loaded is refused before
anything runs: for want of a source, because a file cannot be read, or because of a fault of the
program. What goes wrong later stops the machine, which then shows how far it came. An execution
leaves the console behind, as the machine left it or, without a machine, as it was.
-/

set_option autoImplicit false
set_option relaxedAutoImplicit false

namespace Accumulator

inductive Refusal where
  | noSource
  | rejected (fault : Fault)
  | unreadable (path : Path) (error : ReadError)
  | failed (failure : Failure)
  deriving DecidableEq, Repr

/-- Faults of the program reject it; other failures of loading stay what they are. -/
def Refusal.ofLoadError : LoadError → Refusal
  | .unreadable path error => .unreadable path error
  | .failed (.fault fault) => .rejected fault
  | .failed failure => .failed failure

/-- What a program reads from and writes to. -/
structure Console where
  input : TokenReader := {}
  output : Output := {}

/-- The console of a machine, as far as the machine has used it. -/
def Machine.console (machine : Machine) : Console where
  input := machine.input
  output := machine.output

inductive Outcome where
  | refused (refusal : Refusal)
  | stopped (machine : Machine) (failure : Failure)
  | finished (machine : Machine) (steps : Nat)

namespace Settings

/-- The machine that settings describe. -/
def machine (settings : Settings) (files : Files) (input : TokenReader) (output : Output) :
    Except Refusal Machine :=
  match settings.source with
  | none => .error .noSource
  | some source =>
      match loadProgram files [source] with
      | .error error => .error (.ofLoadError error)
      | .ok program =>
          .ok (.start program { r := settings.registers } input output
            (if settings.isTraced then some .log else none))

/-- Loads and runs a program at a console. The console is handed to the machine and comes back from
it; there is no outcome if the fuel was used up first. -/
def executeAt (fuel : Nat) (settings : Settings) (files : Files) (console : Console) :
    Option (Outcome × Console) :=
  match settings.machine files console.input console.output with
  | .error refusal => some (.refused refusal, console)
  | .ok machine =>
      match machine.run fuel settings.budget with
      | (_, none) => none
      | (after, some (.ok steps)) => some (.finished after steps, after.console)
      | (after, some (.error failure)) => some (.stopped after failure, after.console)

/-- The outcome alone of an execution at a console. -/
def execute (fuel : Nat) (settings : Settings) (files : Files) (input : TokenReader)
    (output : Output) : Option Outcome :=
  (settings.executeAt fuel files { input, output }).map Prod.fst

end Settings

end Accumulator
