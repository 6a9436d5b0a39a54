import Accumulator.Console.Output
import Accumulator.Console.TokenReader
import Accumulator.Program
import Accumulator.Registers

/-!
A machine is a program at work: the registers, the console, and how far it has come. Its snapshot
shows the registers and the listing of the program, the current instruction marked.
-/

set_option autoImplicit false
set_option relaxedAutoImplicit false

namespace Accumulator

/-- Where snapshots go when a machine is traced: a collection, the log, or a receiver that fails. -/
inductive TraceSink where
  | collection
  | log
  | failing
  deriving DecidableEq, Repr

/-- What a machine reports besides its output. -/
inductive Event where
  | collected (snapshot : String)
  | logged (snapshot : String)
  | halted (pc : Value) (steps : Nat)
  deriving DecidableEq, Repr

structure Machine where
  program : Program
  registers : Registers
  input : TokenReader := {}
  output : Output := {}
  trace : Option TraceSink := none
  halted : Bool := false
  steps : Nat := 0
  journal : Array Event := #[]

namespace Machine

/-- A machine about to execute the first instruction, whatever the program counter held before. -/
def start (program : Program) (registers : Registers) (input : TokenReader := {})
    (output : Output := {}) (trace : Option TraceSink := none) : Machine :=
  { program, registers := { registers with pc := .int 0 }, input, output, trace }

/-- The instruction at the program counter, if that lies inside the program. -/
def current? (machine : Machine) : Option Instruction := do
  machine.program.instructions[← machine.registers.pc.index? machine.program.size]?

def snapshot (machine : Machine) : Except Numeral.Overlong String := do
  let registers ← machine.registers.text
  let listing ← machine.program.listing machine.registers.pc
  return "\n".intercalate (registers :: "COMMANDS:" :: listing)

def report (machine : Machine) (event : Event) : Machine :=
  { machine with journal := machine.journal.push event }

/-- The same machine with nothing written or reported so far. -/
def fresh (machine : Machine) : Machine :=
  { machine with output := { machine.output with written := "" }, journal := #[] }

end Machine

end Accumulator
