import Accumulator.Machine

/-!
One step of a machine. An instruction either fails, and then leaves the registers as they were, or
yields the displacement of the program counter. The step is complete, the halt included, before the
trace sees it, so that a failing trace leaves a machine that has advanced.

A machine halts on the one instruction that does not move the program counter.
-/

set_option autoImplicit false
set_option relaxedAutoImplicit false

namespace Accumulator.Machine

def setAcc (machine : Machine) (value : Value) : Machine :=
  { machine with registers := { machine.registers with acc := value } }

/-- The displacement to a label. -/
def jump (machine : Machine) (target : String) : Except Failure Int :=
  match machine.program.address target with
  | .ok address => .ok (address - machine.registers.pc.toInt)
  | .error fault => .error (.ofFault fault)

/-- Executes an instruction that puts a new value, made of the accumulator and of a register's
value, into the accumulator. -/
def accumulate (machine : Machine) (index : Value) (combine : Value → Value → Value) :
    Machine × Except Failure Int :=
  match machine.registers.load index with
  | .ok value => (machine.setAcc (combine machine.registers.acc value), .ok 1)
  | .error fault => (machine, .error (.ofFault fault))

def storeAcc (machine : Machine) (index : Value) : Machine × Except Failure Int :=
  match machine.registers.store index machine.registers.acc with
  | .ok registers => ({ machine with registers }, .ok 1)
  | .error fault => (machine, .error (.ofFault fault))

/-- Writes the prompt, then takes an integer. The prompt is flushed with the write, which is assumed
not to fail by itself. -/
def readAcc (machine : Machine) (prompt : String) : Machine × Except Failure Int :=
  match machine.output.write prompt with
  | (output, false) => ({ machine with output }, .error .brokenOutput)
  | (output, true) =>
      match machine.input.nextInteger with
      | (.ok n, input) => ({ machine with input, output }.setAcc (.int n), .ok 1)
      | (.error failure, input) => ({ machine with input, output }, .error failure)

/-- Writes prompt and accumulator as one line, which is flushed with the write. -/
def writeAcc (machine : Machine) (prompt : String) : Machine × Except Failure Int :=
  match machine.registers.acc.text with
  | .error cause => (machine, .error (.overlong cause))
  | .ok acc =>
      match machine.output.write s!"{prompt}{acc}\n" with
      | (output, false) => ({ machine with output }, .error .brokenOutput)
      | (output, true) => ({ machine with output }, .ok 1)

/-- Executes an instruction. The result is the displacement of the program counter, which is left to
be applied. -/
def execute (machine : Machine) : Instruction → Machine × Except Failure Int
  | .label _ => (machine, .ok 1)
  | .add index => machine.accumulate index fun acc value ↦ .int (acc.toInt + value.toInt)
  | .sub index => machine.accumulate index fun acc value ↦ .int (acc.toInt - value.toInt)
  | .load index => machine.accumulate index fun _ value ↦ value
  | .store index => machine.storeAcc index
  | .jump target => (machine, machine.jump target)
  | .jumpIfZero target =>
      (machine, if machine.registers.acc.toInt = 0 then machine.jump target else .ok 1)
  | .jumpIfNonNegative target =>
      (machine, if 0 ≤ machine.registers.acc.toInt then machine.jump target else .ok 1)
  | .halt => (machine, .ok 0)
  | .input prompt => machine.readAcc prompt
  | .output prompt => machine.writeAcc prompt

/-- Moves the program counter and counts the step. Without progress the machine halts. -/
def advance (machine : Machine) (displacement : Int) : Machine :=
  let pc := machine.registers.pc
  let next := pc.toInt + displacement
  let moved :=
    { machine with
      registers := { machine.registers with pc := .int next }, steps := machine.steps + 1 }
  if next = pc.toInt then { moved with halted := true }.report (.halted pc moved.steps) else moved

/-- Hands a snapshot to the trace, if there is one. -/
def deliver (machine : Machine) : Machine × Except Failure Unit :=
  match machine.trace with
  | none => (machine, .ok ())
  | some sink =>
      match machine.snapshot with
      | .error cause => (machine, .error (.overlong cause))
      | .ok text =>
          match sink with
          | .collection => (machine.report (.collected text), .ok ())
          | .log => (machine.report (.logged text), .ok ())
          | .failing => (machine, .error .brokenTrace)

/-- Executes one instruction. The result tells whether the program counter moved; a halted machine
stays as it is. -/
def step (machine : Machine) : Machine × Except Failure Bool :=
  if machine.halted then (machine, .ok false)
  else
    match machine.current? with
    | none =>
        (machine, .error (.ofFault (.pcOutOfRange machine.registers.pc machine.program.size)))
    | some instruction =>
        match machine.execute instruction with
        | (after, .error failure) => (after, .error failure)
        | (after, .ok displacement) =>
            let advanced := after.advance displacement
            match advanced.deliver with
            | (traced, .error failure) => (traced, .error failure)
            | (traced, .ok ()) => (traced, .ok !advanced.halted)

theorem step_of_halted {machine : Machine} (h : machine.halted = true) :
    machine.step = (machine, .ok false) := by
  simp [step, h]

end Accumulator.Machine
