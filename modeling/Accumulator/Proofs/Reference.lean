import Accumulator.Console.TokenReader
import Accumulator.Instruction

/-!
A reference interpreter, for comparison with the machine. It is what the table of the instructions'
effects says and no more: it keeps the accumulator, the numbered registers and the index of the
current instruction. The destination of a jump is searched in the instruction list each time, there
are no displacements, and nothing remembers a halt but the end of the run.
-/

set_option autoImplicit false
set_option relaxedAutoImplicit false

namespace Accumulator.Reference

/-- The state of the interpreter, with the tokens not yet taken and the text written so far. -/
structure State where
  acc : Value
  r : List Value
  index : Nat := 0
  tokens : List String := []
  written : String := ""
  deriving DecidableEq, Repr

/-- How things stand after a step or a run: a halt was executed, or something failed, or neither. -/
inductive Outcome where
  | running
  | stopped
  | failed (failure : Failure)
  deriving DecidableEq, Repr

/-- The value in a register. Counting does not start from the end, whatever the index. -/
def register? (r : List Value) (index : Value) : Option Value :=
  if index.toInt < 0 then none else r[index.toInt.toNat]?

/-- Where the label of that name stands. -/
def destination? (instructions : List Instruction) (name : String) : Option Nat :=
  instructions.findIdx? (· == .label name)

namespace State

/-- On to the next instruction. -/
def next (state : State) : State × Outcome := ({ state with index := state.index + 1 }, .running)

/-- Goes on with what a register's value makes of the state, if there is such a register. -/
def withRegister (state : State) (index : Value) (use : Value → State) : State × Outcome :=
  match register? state.r index with
  | some value => (use value).next
  | none => (state, .failed (.ofFault (.registerIndexOutOfRange index state.r.length)))

def jump (instructions : List Instruction) (state : State) (name : String) : State × Outcome :=
  match destination? instructions name with
  | some index => ({ state with index }, .running)
  | none => (state, .failed (.ofFault (.labelNotFound name)))

def read (state : State) (prompt : String) : State × Outcome :=
  let prompted := { state with written := state.written ++ prompt }
  match state.tokens with
  | [] => (prompted, .failed (.ofFault (.inputParseError none)))
  | token :: tokens =>
      match TokenReader.integer token with
      | .ok n => { prompted with tokens, acc := .int n }.next
      | .error failure => ({ prompted with tokens }, .failed failure)

def write (state : State) (prompt : String) : State × Outcome :=
  match state.acc.text with
  | .ok text => { state with written := state.written ++ (prompt ++ text ++ "\n") }.next
  | .error cause => (state, .failed (.overlong cause))

end State

/-- Executes one instruction. -/
def execute (instructions : List Instruction) (state : State) : Instruction → State × Outcome
  | .label _ => state.next
  | .add index => state.withRegister index fun value ↦
      { state with acc := .int (state.acc.toInt + value.toInt) }
  | .sub index => state.withRegister index fun value ↦
      { state with acc := .int (state.acc.toInt - value.toInt) }
  | .store index => state.withRegister index fun _ ↦
      { state with r := state.r.set index.toInt.toNat state.acc }
  | .load index => state.withRegister index fun value ↦ { state with acc := value }
  | .jump target => state.jump instructions target
  | .jumpIfZero target =>
      if state.acc.toInt = 0 then state.jump instructions target else state.next
  | .jumpIfNonNegative target =>
      if 0 ≤ state.acc.toInt then state.jump instructions target else state.next
  | .halt => (state, .stopped)
  | .input prompt => state.read prompt
  | .output prompt => state.write prompt

/-- Executes the current instruction, if the index is that of one. -/
def step (instructions : List Instruction) (state : State) : State × Outcome :=
  match instructions[state.index]? with
  | some instruction => execute instructions state instruction
  | none =>
      (state, .failed (.ofFault (.pcOutOfRange (.int state.index) instructions.length)))

/-- So many steps, or fewer if it comes to an end before. -/
def run (instructions : List Instruction) : Nat → State → State × Outcome
  | 0, state => (state, .running)
  | n + 1, state =>
      match step instructions state with
      | (after, .running) => run instructions n after
      | ended => ended

end Accumulator.Reference
