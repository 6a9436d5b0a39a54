import Accumulator.Proofs.Failures
import Accumulator.Proofs.ProgramCounter

/-!
Halting. A machine halts on a step that does not move the program counter. No jump of a program
leads to itself, for its target holds a label, so that only a halt instruction halts the machine
(`step_halted_iff`). A halted machine does nothing more, whatever it is called for and whatever is
written into it (`Retired`).
-/

set_option autoImplicit false
set_option relaxedAutoImplicit false

namespace Accumulator.Machine

variable {machine : Machine}

/-! ### How a machine halts -/

/-- A step halts the machine exactly if the current instruction is a halt. -/
theorem step_halted_iff (hrunning : machine.halted = false) :
    machine.step.1.halted = true ↔ machine.current? = some .halt := by
  have hframe := machine.frame_attempt
  rcases machine.step_cases with ⟨hhalted, -⟩ | ⟨after, failure, -, hattempt, hstep⟩ |
    ⟨after, displacement, -, hattempt, hstep⟩
  · rw [hrunning] at hhalted
    contradiction
  · rw [hattempt] at hframe
    rw [hstep, hframe.halted, hrunning]
    constructor
    · intro hhalted
      contradiction
    · intro hcurrent
      -- A halt instruction cannot fail.
      rw [attempt_of_current hcurrent] at hattempt
      cases hattempt
  · have hresult : machine.attempt.2 = .ok displacement := by rw [hattempt]
    obtain ⟨instruction, hcurrent, hzero, -⟩ := attempt_destination hresult
    rw [hattempt] at hframe
    rw [hstep, commit_halted, hframe.halted, hrunning, Bool.or_false, decide_eq_true_iff, hzero,
      hcurrent, Option.some.injEq]

/-- A step that halts the machine leaves the program counter at the halt instruction. -/
theorem current?_of_halting_step (hrunning : machine.halted = false)
    (hhalted : machine.step.1.halted = true) : machine.step.1.current? = some .halt := by
  have hcurrent := (step_halted_iff hrunning).mp hhalted
  rcases machine.step_cases with ⟨-, hstep⟩ | ⟨between, failure, -, hattempt, hstep⟩ |
    ⟨between, displacement, -, hattempt, hstep⟩
  · rw [hstep]
    exact hcurrent
  · rw [attempt_of_current hcurrent] at hattempt
    cases hattempt
  · rw [attempt_of_current hcurrent] at hattempt
    cases hattempt
    obtain ⟨pc, hpc, hat⟩ := (machine.current?_eq_some_iff .halt).mp hcurrent
    refine (current?_eq_some_iff _ _).mpr ⟨pc, ?_, ?_⟩
    · rw [hstep, commit_registers, Value.toInt_int, Int.add_zero, hpc]
    · rw [hstep, commit_program, hat]

/-- A step on a jump, taken or not, moves the program counter. -/
theorem step_of_jump {instruction : Instruction} {target : String}
    (hrunning : machine.halted = false) (hcurrent : machine.current? = some instruction)
    (htarget : instruction.target? = some target) :
    machine.step.1.steps = machine.steps + 1 ∧ machine.step.1.halted = false ∧
      machine.step.1.registers.pc.toInt ≠ machine.registers.pc.toInt := by
  obtain ⟨displacement, hexecute, hmoves⟩ := exists_displacement_of_target hcurrent htarget
  have hstep := step_of_running hrunning
  rw [attempt_of_current hcurrent, hexecute] at hstep
  rw [hstep]
  refine ⟨?_, ?_, ?_⟩
  · rw [commit_steps]
  · rw [commit_halted, hrunning, Bool.or_false, decide_eq_false_iff_not]
    exact hmoves
  · rw [commit_registers, Value.toInt_int]
    omega

/-- Somewhere before a machine has halted there was a halt instruction to execute. -/
theorem exists_halt_of_halted (hrunning : machine.halted = false) (n : Nat)
    (hhalted : (machine.afterSteps n).halted = true) :
    ∃ k < n, (machine.afterSteps k).halted = false ∧
      (machine.afterSteps k).current? = some .halt := by
  induction n with
  | zero =>
    rw [afterSteps, hrunning] at hhalted
    contradiction
  | succ n ih =>
    by_cases hbefore : (machine.afterSteps n).halted = true
    · obtain ⟨k, hk, hcurrent⟩ := ih hbefore
      exact ⟨k, by omega, hcurrent⟩
    · rw [Bool.not_eq_true] at hbefore
      exact ⟨n, by omega, hbefore, (step_halted_iff hbefore).mp hhalted⟩

/-- A machine that has halted stands at a halt instruction. -/
theorem current?_of_halted (hrunning : machine.halted = false) (n : Nat)
    (hhalted : (machine.afterSteps n).halted = true) :
    (machine.afterSteps n).current? = some .halt := by
  induction n with
  | zero =>
    rw [afterSteps, hrunning] at hhalted
    contradiction
  | succ n ih =>
    by_cases hbefore : (machine.afterSteps n).halted = true
    · rw [afterSteps, step_of_halted hbefore]
      exact ih hbefore
    · exact current?_of_halting_step (Bool.not_eq_true _ ▸ hbefore) hhalted

/-- Outside its program a machine is stuck: no call to step changes anything any more. -/
theorem afterSteps_of_no_current (hrunning : machine.halted = false)
    (hcurrent : machine.current? = none) (n : Nat) : machine.afterSteps n = machine := by
  induction n with
  | zero => rfl
  | succ n ih => rw [afterSteps, ih, step_of_no_current hrunning hcurrent]

/-! ### What a machine does once it has halted -/

theorem run_of_halted (hhalted : machine.halted = true) (fuel : Nat) (budget : Budget) :
    machine.run (fuel + 1) budget = (machine, some (.ok 0)) := by
  unfold run runFrom runStep
  rw [step_of_halted hhalted]
  simp

/-- What is left of a machine that has halted: it is out of work, and nothing but its registers and
its trace can have changed since. -/
structure Retired (before after : Machine) : Prop where
  halted : after.halted = true
  unchanged : after = { before with registers := after.registers, trace := after.trace }

theorem Retired.of_performs {before after : Machine} {operation : Operation}
    (h : Retired machine before) (hperforms : Performs operation before after) :
    Retired machine after := by
  obtain ⟨hhalted, hunchanged⟩ := h
  cases hperforms with
  | step =>
    rw [step_of_halted hhalted]
    exact ⟨hhalted, hunchanged⟩
  | @run budget _ _ fuel _ hrun =>
    cases fuel with
    | zero => cases hrun
    | succ fuel =>
      rw [run_of_halted hhalted] at hrun
      cases hrun
      exact ⟨hhalted, hunchanged⟩
  | setTrace =>
    refine ⟨hhalted, ?_⟩
    rw [hunchanged]
  | setAcc =>
    refine ⟨hhalted, ?_⟩
    rw [hunchanged]
    rfl
  | setPc =>
    refine ⟨hhalted, ?_⟩
    rw [hunchanged]
  | setRegisters =>
    refine ⟨hhalted, ?_⟩
    rw [hunchanged]

/-- A step halts a running machine exactly if the instruction at the program counter is a halt.
Jumps always move on, so that steps which meet no halt instruction never halt the machine, and a
loop of jumps never does. From then on, whatever is called and written, the machine stays halted,
takes no further step and touches neither its console nor its journal; steps and runs leave its
registers alone as well. -/
theorem halted_by_halt_for_good (machine : Machine) :
    (machine.halted = false →
      (machine.step.1.halted = true ↔ machine.current? = some .halt) ∧
      (∀ instruction target, machine.current? = some instruction →
        instruction.target? = some target →
          machine.step.1.steps = machine.steps + 1 ∧ machine.step.1.halted = false ∧
            machine.step.1.registers.pc.toInt ≠ machine.registers.pc.toInt) ∧
      ∀ n, (machine.afterSteps n).halted = true →
        ∃ k < n, (machine.afterSteps k).halted = false ∧
          (machine.afterSteps k).current? = some .halt) ∧
    (machine.halted = true → ∀ operations last, PerformsAll operations machine last →
      last.halted = true ∧ last.steps = machine.steps ∧ last.program = machine.program ∧
        last.input = machine.input ∧ last.output = machine.output ∧
        last.journal = machine.journal ∧ last.step = (last, .ok false) ∧
        ∀ fuel budget, last.run (fuel + 1) budget = (last, some (.ok 0))) := by
  constructor
  · intro hrunning
    refine ⟨step_halted_iff hrunning, ?_, exists_halt_of_halted hrunning⟩
    intro instruction target hcurrent htarget
    exact step_of_jump hrunning hcurrent htarget
  · intro hhalted operations last hsession
    have hretired : Retired machine last :=
      hsession.preserves (fun _ _ _ _ hperforms h ↦ h.of_performs hperforms) ⟨hhalted, rfl⟩
    have hlast := hretired.halted
    refine ⟨hlast, ?_, ?_, ?_, ?_, ?_, step_of_halted hlast, run_of_halted hlast⟩ <;>
      rw [hretired.unchanged]

/-- A jump to the label before it goes on for ever. A halt is final, also with a trace that fails
and a program counter that leaves the program. -/
theorem self_jump_never_halts_and_halt_is_final :
    let loop : Program := ⟨#[.label "x", .jump "x"], [("x", 0)], rfl, by decide,
      Labels.targets_of_undefined? rfl⟩
    let stop : Program := ⟨#[.halt], [], rfl, by decide, Labels.targets_of_undefined? rfl⟩
    let halted := (start stop { r := [] }).step.1
    (¬ ∃ n, ((start loop { r := [] }).afterSteps n).halted = true) ∧
      ∃ last, PerformsAll [.setTrace (some .failing), .setPc (.int 9), .run .unlimited]
          halted last ∧
        last.steps = 1 ∧ last.step = (last, .ok false) := by
  intro loop stop halted
  constructor
  · rintro ⟨n, hhalted⟩
    obtain ⟨-, -, hmeets⟩ := (halted_by_halt_for_good (start loop { r := [] })).1 rfl
    obtain ⟨k, -, -, hcurrent⟩ := hmeets n hhalted
    obtain ⟨hprogram, -⟩ := afterSteps_preserves (fun _ ↦ inProgram_step) _
      (inProgram_start loop { r := [] } {} {} none) k
    obtain ⟨i, -, hat⟩ := (current?_eq_some_iff _ _).mp hcurrent
    rw [hprogram] at hat
    have hmem : Instruction.halt ∈ loop.instructions := Array.mem_of_getElem? hat
    simp [loop] at hmem
  · have hsession := PerformsAll.cons (.setTrace halted (some .failing))
      (.cons (.setPc _ (.int 9)) (.cons (@Performs.run .unlimited _ _ 1 _ rfl) (.nil _)))
    refine ⟨_, hsession, ?_⟩
    obtain ⟨-, hsteps, -, -, -, -, hidle, -⟩ :=
      (halted_by_halt_for_good halted).2 rfl _ _ hsession
    exact ⟨hsteps, hidle⟩

end Accumulator.Machine
