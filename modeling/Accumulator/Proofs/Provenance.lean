import Accumulator.Proofs.Atomicity
import Accumulator.Proofs.Session

/-!
Where the values in the registers come from. An instruction that is carried out leaves in each
register what stood in one of them before, or an integer that it has made or read
(`Instruction.source?`); a failing one leaves them all as they are. Traced back over the steps, a
value is that of a register at the beginning, or an integer (`at?_afterSteps`).
-/

set_option autoImplicit false
set_option relaxedAutoImplicit false

namespace Accumulator

/-- A place for a value: the accumulator or a numbered register. -/
inductive Cell where
  | acc
  | register (j : Nat)
  deriving DecidableEq, Repr

namespace Registers

def at? (registers : Registers) : Cell → Option Value
  | .acc => some registers.acc
  | .register j => registers.r[j]?

/-- The value is the one that a cell of these registers holds, or else an integer. -/
def Supplies (registers : Registers) : Option Cell → Option Value → Prop
  | some cell, value? => value? = registers.at? cell
  | none, value? => ∃ n, value? = some (.int n)

end Registers

/-- The cell whose value a cell holds after the instruction. There is none for a sum, a difference
and an integer that was read. -/
def Instruction.source? : Instruction → Cell → Option Cell
  | .add _, .acc | .sub _, .acc | .input _, .acc => none
  | .load index, .acc => some (.register index.toInt.toNat)
  | .store index, .register j => some (if index.toInt = j then .acc else .register j)
  | _, cell => some cell

namespace Machine

variable {machine after : Machine} {instruction : Instruction} {displacement : Int}

/-! ### Single steps -/

theorem accumulate_supplies {index : Value} {combine : Value → Value → Value}
    (h : machine.accumulate index combine = (after, .ok displacement)) :
    ∃ (i : Nat) (value : Value), index.toInt = i ∧ machine.registers.r[i]? = some value ∧
      after.registers.acc = combine machine.registers.acc value ∧
      after.registers.r = machine.registers.r := by
  unfold accumulate at h
  cases hindex : index.index? machine.registers.size with
  | none =>
    rw [Registers.load_of_outOfRange hindex] at h
    cases h
  | some i =>
    obtain ⟨hi, hlt⟩ := (Value.index?_eq_some_iff _ _ _).mp hindex
    rw [Registers.load_of_inRange hindex] at h
    cases h
    refine ⟨i, _, hi, ?_, rfl, rfl⟩
    rw [List.getD_eq_getElem?_getD, List.getElem?_eq_getElem hlt, Option.getD_some]

theorem execute_supplies (h : machine.execute instruction = (after, .ok displacement))
    (cell : Cell) :
    machine.registers.Supplies (instruction.source? cell) (after.registers.at? cell) := by
  have hcombined {index : Value} {combine : Value → Value → Int}
      (hexecute : machine.accumulate index (fun acc value ↦ .int (combine acc value)) =
        (after, .ok displacement)) :
      (∃ n, after.registers.acc = .int n) ∧ after.registers.r = machine.registers.r := by
    obtain ⟨_, value, -, -, hacc, hr⟩ := accumulate_supplies hexecute
    exact ⟨⟨_, hacc⟩, hr⟩
  cases instruction with
  | label name =>
    obtain rfl : machine = after := congrArg Prod.fst h
    cases cell <;> rfl
  | add index =>
    rw [execute] at h
    obtain ⟨⟨n, hacc⟩, hr⟩ := hcombined h
    cases cell with
    | acc => exact ⟨n, congrArg some hacc⟩
    | register j => exact congrArg (·[j]?) hr
  | sub index =>
    rw [execute] at h
    obtain ⟨⟨n, hacc⟩, hr⟩ := hcombined h
    cases cell with
    | acc => exact ⟨n, congrArg some hacc⟩
    | register j => exact congrArg (·[j]?) hr
  | store index =>
    rw [execute, storeAcc] at h
    cases hindex : index.index? machine.registers.size with
    | none =>
      rw [Registers.store_of_outOfRange hindex] at h
      cases h
    | some i =>
      obtain ⟨hi, hlt⟩ := (Value.index?_eq_some_iff _ _ _).mp hindex
      rw [Registers.store_of_inRange hindex] at h
      cases h
      cases cell with
      | acc => rfl
      | register j =>
        -- The source of register `j` changes only if it is the one stored into.
        have hlt' : i < machine.registers.r.length := hlt
        simp only [Instruction.source?, Registers.Supplies, Registers.at?, hi, Int.natCast_inj]
        by_cases hij : i = j
        · rw [if_pos hij, ← hij, List.getElem?_set_self hlt']
        · rw [if_neg hij, List.getElem?_set_ne hij]
  | load index =>
    rw [execute] at h
    obtain ⟨i, value, hi, hat, hacc, hr⟩ := accumulate_supplies h
    cases cell with
    | acc =>
      have hnat : index.toInt.toNat = i := by omega
      simp only [Instruction.source?, Registers.Supplies, Registers.at?, hnat, hat, hacc]
    | register j => exact congrArg (·[j]?) hr
  | jump target =>
    obtain rfl : machine = after := congrArg Prod.fst h
    cases cell <;> rfl
  | jumpIfZero target =>
    obtain rfl : machine = after := congrArg Prod.fst h
    cases cell <;> rfl
  | jumpIfNonNegative target =>
    obtain rfl : machine = after := congrArg Prod.fst h
    cases cell <;> rfl
  | halt =>
    obtain rfl : machine = after := congrArg Prod.fst h
    cases cell <;> rfl
  | input prompt =>
    rw [execute, readAcc] at h
    split at h
    · cases h
    · split at h
      · rename_i n _ _
        cases h
        cases cell with
        | acc => exact ⟨n, rfl⟩
        | register j => rfl
      · cases h
  | output prompt =>
    rw [execute, writeAcc] at h
    split at h
    · cases h
    · split at h
      · cases h
      · cases h
        cases cell <;> rfl

/-- The instruction that the next step carries out, if it does not fail. -/
def carriedOut? (machine : Machine) : Option Instruction :=
  match machine.halted, machine.attempt.2 with
  | false, .ok _ => machine.current?
  | _, _ => none

/-- The cell whose value a cell holds after the next step. -/
def source? (machine : Machine) (cell : Cell) : Option Cell :=
  match machine.carriedOut? with
  | some instruction => instruction.source? cell
  | none => some cell

theorem step_supplies (machine : Machine) (cell : Cell) :
    machine.registers.Supplies (machine.source? cell) (machine.step.1.registers.at? cell) := by
  rcases machine.step_cases with ⟨hhalted, hstep⟩ | ⟨after, failure, hrunning, hattempt, hstep⟩ |
    ⟨after, displacement, hrunning, hattempt, hstep⟩
  · rw [hstep, source?, carriedOut?, hhalted]
    rfl
  · have hsame : after.registers = machine.registers := by
      rw [(attempt_error hattempt).unchanged]
    rw [hstep, source?, carriedOut?, hrunning, hattempt, hsame]
    rfl
  · obtain ⟨instruction, hcurrent, -⟩ :=
      attempt_destination (show machine.attempt.2 = .ok displacement by rw [hattempt])
    have hcommitted : (after.commit displacement).1.registers.at? cell =
        after.registers.at? cell := by
      rw [commit_registers]
      cases cell <;> rfl
    rw [hstep, hcommitted, source?, carriedOut?, hrunning, hattempt, hcurrent]
    rw [attempt_of_current hcurrent] at hattempt
    exact execute_supplies hattempt cell

/-! ### Many steps -/

/-- The cell whose value at the beginning a cell holds after so many steps. -/
def origin? (machine : Machine) : Nat → Cell → Option Cell
  | 0, cell => some cell
  | n + 1, cell => ((machine.afterSteps n).source? cell).bind (machine.origin? n)

/-- A value is that of a cell at the beginning, or an integer. -/
theorem at?_afterSteps (machine : Machine) (n : Nat) (cell : Cell) :
    machine.registers.Supplies (machine.origin? n cell)
      ((machine.afterSteps n).registers.at? cell) := by
  induction n generalizing cell with
  | zero => rfl
  | succ n ih =>
    have hstep := (machine.afterSteps n).step_supplies cell
    rw [origin?, afterSteps]
    cases hsource : (machine.afterSteps n).source? cell with
    | none =>
      rw [hsource] at hstep
      exact hstep
    | some source =>
      rw [hsource] at hstep
      rw [Option.bind_some, hstep]
      exact ih source

/-- A truth value is a copy of one that was there at the beginning. -/
theorem at?_eq_bool_iff (machine : Machine) (n : Nat) (cell : Cell) (b : Bool) :
    (machine.afterSteps n).registers.at? cell = some (.bool b) ↔
      ∃ first, machine.origin? n cell = some first ∧
        machine.registers.at? first = some (.bool b) := by
  have hsupplies := machine.at?_afterSteps n cell
  cases horigin : machine.origin? n cell with
  | none =>
    rw [horigin] at hsupplies
    obtain ⟨m, hvalue⟩ := hsupplies
    simp [hvalue]
  | some first =>
    rw [horigin] at hsupplies
    rw [show _ = _ from hsupplies]
    simp

@[simp] theorem at?_start (program : Program) (registers : Registers) (input : TokenReader)
    (output : Output) (trace : Option TraceSink) (cell : Cell) :
    (start program registers input output trace).registers.at? cell = registers.at? cell := by
  cases cell <;> rfl

/-- Only integers are made of integers. -/
theorem acc_isInteger (hintegers : ∀ cell b, machine.registers.at? cell ≠ some (.bool b))
    (n : Nat) : ∃ m, (machine.afterSteps n).registers.acc = .int m := by
  cases hacc : (machine.afterSteps n).registers.acc with
  | int m => exact ⟨m, rfl⟩
  | bool b =>
    obtain ⟨first, -, hvalue⟩ :=
      (machine.at?_eq_bool_iff n .acc b).mp (congrArg some hacc)
    exact absurd hvalue (hintegers first b)

end Machine

end Accumulator
