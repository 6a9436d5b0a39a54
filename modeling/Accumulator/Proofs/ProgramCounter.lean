import Accumulator.Proofs.Failures
import Accumulator.Proofs.Session

/-!
Where the program counter can be. However a machine is stepped, run and written to, as long as the
program counter itself is not written, it is an address of the program or the one behind the last
(`InProgram`). So no step looks for an unknown label, and the program counter is out of range only
when the machine has run past its last instruction.
-/

set_option autoImplicit false
set_option relaxedAutoImplicit false

namespace Accumulator.Machine

variable {program : Program} {machine : Machine}

/-- The machine works on the program and has not left it further than by its end. -/
def InProgram (program : Program) (machine : Machine) : Prop :=
  machine.program = program ∧
    ∃ pc : Nat, machine.registers.pc = .int pc ∧ pc ≤ program.size

theorem inProgram_start (program : Program) (registers : Registers) (input : TokenReader)
    (output : Output) (trace : Option TraceSink) :
    InProgram program (start program registers input output trace) :=
  ⟨rfl, 0, rfl, Nat.zero_le _⟩

theorem inProgram_step (h : InProgram program machine) : InProgram program machine.step.1 := by
  obtain ⟨hprogram, pc, hpc, hle⟩ := h
  have hframe := machine.frame_attempt
  rcases machine.step_cases with ⟨-, hstep⟩ | ⟨after, failure, -, hattempt, hstep⟩ |
    ⟨after, displacement, -, hattempt, hstep⟩
  · rw [hstep]
    exact ⟨hprogram, pc, hpc, hle⟩
  · rw [hstep]
    rw [hattempt] at hframe
    exact ⟨hframe.program.trans hprogram, pc, hframe.pc.trans hpc, hle⟩
  · have hresult : machine.attempt.2 = .ok displacement := by rw [hattempt]
    obtain ⟨-, -, -, next, hnext, hinside⟩ := attempt_destination hresult
    rw [hattempt] at hframe
    rw [hstep]
    refine ⟨?_, next, ?_, ?_⟩
    · rw [commit_program]
      exact hframe.program.trans hprogram
    · rw [commit_registers, hframe.pc, hnext]
    · rw [← hprogram]
      exact hinside

/-- All operations but writes to the program counter keep it in the program. -/
theorem inProgram_of_performs {operation : Operation} {after : Machine}
    (hperforms : Performs operation machine after) (hpc : ∀ value, operation ≠ .setPc value)
    (h : InProgram program machine) : InProgram program after := by
  cases hperforms with
  | step => exact inProgram_step h
  | @run budget _ _ fuel _ hrun =>
    have hafter := runFrom_preserves (fun _ ↦ inProgram_step) budget machine.steps fuel machine h
    unfold run at hrun
    rw [hrun] at hafter
    exact hafter
  | setTrace => exact h
  | setAcc => exact h
  | setPc => exact absurd rfl (hpc _)
  | setRegisters => exact h

/-- Outside the program means behind its end, for a program counter that is in the program. -/
theorem InProgram.current?_eq_none_iff (h : InProgram program machine) :
    machine.current? = none ↔ machine.registers.pc = .int program.size := by
  obtain ⟨rfl, pc, hpc, hle⟩ := h
  rw [Machine.current?_eq_none_iff, hpc, Value.toInt_int]
  constructor
  · rintro (hneg | hbehind)
    · omega
    · have heq : pc = machine.program.size := by omega
      rw [heq]
  · intro heq
    have hint := Value.int.inj heq
    exact Or.inr (by omega)

/-- Behind the end of its program a machine is stuck. -/
theorem InProgram.step_at_end (h : InProgram program machine) (hrunning : machine.halted = false)
    (hend : machine.registers.pc = .int program.size) :
    machine.step =
      (machine, .error (.ofFault (.pcOutOfRange (.int program.size) program.size))) := by
  rw [step_of_no_current hrunning (h.current?_eq_none_iff.mpr hend), hend, h.1]

/-- The faults of a step, for a program counter that is in the program. -/
theorem InProgram.step_fault {fault : Fault} (h : InProgram program machine)
    (hstep : machine.step.2 = .error (.fault fault)) :
    (∃ index size, fault = .registerIndexOutOfRange index size) ∨
      (∃ token, fault = .inputParseError token) ∨
      (machine.halted = false ∧ machine.registers.pc = .int program.size ∧
        program.size < Numeral.bound ∧ fault = .pcOutOfRange (.int program.size) program.size) := by
  rcases step_failure hstep with ⟨hrunning, hcurrent, hfailure⟩ | hfailure | hfailure
  · have hpc := h.current?_eq_none_iff.mp hcurrent
    rw [hpc, h.1] at hfailure
    obtain ⟨heq, hbound⟩ :=
      (Failure.ofFault_pcOutOfRange_eq_fault_iff program.size fault).mp hfailure.symm
    exact Or.inr (Or.inr ⟨hrunning, hpc, hbound, heq.symm⟩)
  · rcases hfailure.fault with hindex | htoken
    · exact Or.inl hindex
    · exact Or.inr (Or.inl htoken)
  · contradiction

/-- The program counter of a machine that was built on a program and is not written from outside
stays in the program, at most behind its end. So no step asks for an unknown label, and the program
counter is found to be out of range only there, and always there unless the machine has halted. (The
fault needs a text for the size of the program, which every program of less than `10 ^ 4300`
instructions has.) -/
theorem pc_out_of_range_iff_at_end (program : Program) (registers : Registers)
    (input : TokenReader) (output : Output) (trace : Option TraceSink)
    (operations : List Operation) (machine : Machine)
    (hsession : PerformsAll operations (start program registers input output trace) machine)
    (hpc : ∀ value, .setPc value ∉ operations) :
    (∃ pc : Nat, machine.registers.pc = .int pc ∧ pc ≤ program.size) ∧
      (∀ name, machine.step.2 ≠ .error (.fault (.labelNotFound name))) ∧
      (∀ pc length, machine.step.2 = .error (.fault (.pcOutOfRange pc length)) ↔
        machine.halted = false ∧ machine.registers.pc = .int program.size ∧
          program.size < Numeral.bound ∧ pc = .int program.size ∧ length = program.size) ∧
      (machine.halted = false → machine.registers.pc = .int program.size →
        machine.step =
          (machine, .error (.ofFault (.pcOutOfRange (.int program.size) program.size)))) := by
  have hin : InProgram program machine := by
    refine hsession.preserves ?_ (inProgram_start program registers input output trace)
    intro operation hmem before after hperforms
    refine inProgram_of_performs hperforms ?_
    rintro value rfl
    exact hpc value hmem
  have hend (hrunning : machine.halted = false) (hat : machine.registers.pc = .int program.size) :
      machine.step =
        (machine, .error (.ofFault (.pcOutOfRange (.int program.size) program.size))) := by
    rw [step_of_no_current hrunning (hin.current?_eq_none_iff.mpr hat), hat, hin.1]
  refine ⟨hin.2, ?_, ?_, hend⟩
  · intro name hstep
    rcases hin.step_fault hstep with ⟨index, size, h⟩ | ⟨token, h⟩ | ⟨-, -, -, h⟩ <;> contradiction
  · intro pc length
    constructor
    · intro hstep
      rcases hin.step_fault hstep with ⟨index, size, h⟩ | ⟨token, h⟩ | ⟨hrunning, hat, hbound, h⟩
      · contradiction
      · contradiction
      · cases h
        exact ⟨hrunning, hat, hbound, rfl, rfl⟩
    · rintro ⟨hrunning, hat, hbound, rfl, rfl⟩
      rw [hend hrunning hat]
      exact congrArg Except.error
        ((Failure.ofFault_pcOutOfRange_eq_fault_iff program.size _).mpr ⟨rfl, hbound⟩)

/-- Stepped over its label and then run, a program without a halt ends behind its last
instruction. -/
theorem pc_out_of_range_behind_addition :
    let program : Program := ⟨#[.label "again", .add (.int 0)], [("again", 0)], rfl, by decide,
      Labels.targets_of_undefined? rfl⟩
    ∃ machine, PerformsAll [.step, .setAcc (.int 5), .run .unlimited]
        (start program { r := [.int 7] }) machine ∧
      machine.registers.acc = .int 12 ∧
      machine.step.2 = .error (.fault (.pcOutOfRange (.int 2) 2)) := by
  intro program
  have hsession := PerformsAll.cons (.step (start program { r := [.int 7] }))
    (.cons (.setAcc _ (.int 5)) (.cons (@Performs.run .unlimited _ _ 3 _ rfl) (.nil _)))
  refine ⟨_, hsession, rfl, ?_⟩
  have hiff := (pc_out_of_range_iff_at_end program _ _ _ _ _ _ hsession (by simp)).2.2.1
  have hbound : 2 < Numeral.bound := Numeral.lt_bound_of_lt_pow (k := 1) (by decide) (by decide)
  exact (hiff _ _).mpr ⟨rfl, rfl, hbound, rfl, rfl⟩

end Accumulator.Machine
