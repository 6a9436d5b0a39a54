import Accumulator.Value

/-!
The instruction set. Register operands may be any value; whether one is in range is decided when
the instruction is executed. `Instruction.text` is the form in which listings show an instruction:
labels at the margin, everything else indented, prompts as they are.
-/

set_option autoImplicit false
set_option relaxedAutoImplicit false

namespace Accumulator

inductive Instruction where
  | label (name : String)
  | add (index : Value)
  | sub (index : Value)
  | store (index : Value)
  | load (index : Value)
  | jump (target : String)
  | jumpIfZero (target : String)
  | jumpIfNonNegative (target : String)
  | halt
  | input (prompt : String)
  | output (prompt : String)
  deriving DecidableEq, Repr

namespace Instruction

instance : Inhabited Instruction := ⟨.halt⟩

def defaultInputPrompt : String := "Input an integer: "

def defaultOutputPrompt : String := ""

def text : Instruction → Except Numeral.Overlong String
  | .label name => .ok s!"LABEL {name}:"
  | .add index => do return s!"    ADD acc += r[{← index.text}]"
  | .sub index => do return s!"    SUB acc -= r[{← index.text}]"
  | .store index => do return s!"    STA r[{← index.text}] = acc"
  | .load index => do return s!"    LDA acc = r[{← index.text}]"
  | .jump target => .ok s!"    JMP {target}"
  | .jumpIfZero target => .ok s!"    JZ {target}"
  | .jumpIfNonNegative target => .ok s!"    JGE {target}"
  | .halt => .ok "    HLT"
  | .input prompt => .ok s!"    IN acc = \"{prompt}\""
  | .output prompt => .ok s!"    OUT \"{prompt}\" <acc>"

/-- The label that a jump refers to. -/
def target? : Instruction → Option String
  | .jump target | .jumpIfZero target | .jumpIfNonNegative target => some target
  | _ => none

/-- The name that a label defines. -/
def name? : Instruction → Option String
  | .label name => some name
  | _ => none

theorem name?_eq_some_iff (i : Instruction) (name : String) :
    i.name? = some name ↔ i = .label name := by
  cases i <;> simp [name?]

/-- The same instruction with its register operand as a plain number. -/
def numeric : Instruction → Instruction
  | .add index => .add (.int index.toInt)
  | .sub index => .sub (.int index.toInt)
  | .store index => .store (.int index.toInt)
  | .load index => .load (.int index.toInt)
  | i => i

/-- The two instructions agree, register operands being compared as numbers. -/
def sameAs (i j : Instruction) : Bool := i.numeric == j.numeric

end Instruction

end Accumulator
