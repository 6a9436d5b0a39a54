import Accumulator.Proofs.Relocation
import Accumulator.Proofs.Runs

/-!
More instructions behind a program. As long as a machine does not come to the end of its program, it
does not notice what is linked behind it (`afterSteps_linked`, `runFrom_linked`): the addresses of
the labels that its jumps go to stay the same, although all labels share one table. A machine that
halts never was at the end.
-/

set_option autoImplicit false
set_option relaxedAutoImplicit false

namespace Accumulator

theorem Program.embeds_of_append {first more : List Instruction} {program linked : Program}
    (hprogram : ofList first = .ok program) (hlinked : ofList (first ++ more) = .ok linked) :
    program.Embeds id id linked := by
  intro i instruction hat
  rw [instructions_of_ofList hprogram, List.getElem?_toArray] at hat
  have hi := (List.getElem?_eq_some_iff.mp hat).1
  rw [instructions_of_ofList hlinked, List.getElem?_toArray, id, List.getElem?_append_left hi, hat,
    Instruction.renamed_id]

namespace Machine

variable {program linked : Program} {machine : Machine}

/-! ### Before the end of the program -/

/-- A step that does not begin at the end of the program is the same on a longer program. -/
theorem Inside.step_linked (h : Inside program machine) (hembeds : program.Embeds id id linked)
    (hend : machine.registers.pc ≠ .int program.size) :
    (machine.onto linked).step = (machine.step.1.onto linked, machine.step.2) := by
  have hembeds' : machine.program.Embeds id id linked := h.inProgram.1 ▸ hembeds
  refine step_onto hembeds' h.untraced fun _ hnone ↦ ?_
  exact absurd (h.inProgram.current?_eq_none_iff.mp hnone) hend

theorem Inside.afterSteps_linked (h : Inside program machine)
    (hembeds : program.Embeds id id linked) (n : Nat)
    (hbefore : ∀ i < n, (machine.afterSteps i).registers.pc ≠ .int program.size) :
    (machine.onto linked).afterSteps n = (machine.afterSteps n).onto linked := by
  induction n with
  | zero => rfl
  | succ n ih =>
    have hlast := hbefore n (Nat.lt_succ_self n)
    rw [Machine.afterSteps, ih fun i hi ↦ hbefore i (Nat.lt_succ_of_lt hi),
      (h.afterSteps n).step_linked hembeds hlast, Machine.afterSteps]

/-- A run that ends elsewhere than at the end of the program never was there, for it would have got
stuck. -/
theorem Inside.runFrom_linked (h : Inside program machine) (hembeds : program.Embeds id id linked)
    (budget : Budget) (begun fuel : Nat)
    (hend : (runFrom budget begun fuel machine).1.registers.pc ≠ .int program.size) :
    runFrom budget begun fuel (machine.onto linked) =
      ((runFrom budget begun fuel machine).1.onto linked,
        (runFrom budget begun fuel machine).2) := by
  induction fuel generalizing machine with
  | zero => rfl
  | succ fuel ih =>
    have hstep : (machine.onto linked).step = (machine.step.1.onto linked, machine.step.2) := by
      have hembeds' : machine.program.Embeds id id linked := h.inProgram.1 ▸ hembeds
      refine step_onto hembeds' h.untraced fun hrunning hnone ↦ absurd ?_ hend
      rw [runFrom_succ, step_of_no_current hrunning hnone]
      exact h.inProgram.current?_eq_none_iff.mp hnone
    have hsteps : (machine.step.1.onto linked).steps = machine.step.1.steps := rfl
    rw [runFrom_succ] at hend
    rw [runFrom_succ, runFrom_succ, hstep, hsteps]
    cases hverdict : verdict budget (machine.step.1.steps - begun) machine.step.2 with
    | some ended => rfl
    | none =>
      rw [hverdict] at hend
      exact ih h.step hend

/-! ### Machines that halt -/

/-- A machine that halts was never at the end of its program. -/
theorem Inside.pc_ne_size_of_halted (h : Inside program machine)
    (hrunning : machine.halted = false) {n : Nat} (hhalted : (machine.afterSteps n).halted = true)
    {i : Nat} (hi : i ≤ n) : (machine.afterSteps i).registers.pc ≠ .int program.size := by
  intro hend
  have hnone := (h.afterSteps i).inProgram.current?_eq_none_iff.mpr hend
  cases hstopped : (machine.afterSteps i).halted with
  | true =>
    rw [current?_of_halted hrunning i hstopped] at hnone
    contradiction
  | false =>
    obtain ⟨m, rfl⟩ := Nat.exists_eq_add_of_le hi
    rw [afterSteps_add, afterSteps_of_no_current hstopped hnone, hstopped] at hhalted
    contradiction

/-- A machine on a program and one on the program with more instructions behind it make the same
steps, with the same results, until the first comes to the end of its program, if it does. So when
the first halts, the other has halted with it, in the same state; and every run of the first that
does not end behind its program, be it that it halts, fails or uses up its limit, is one of the
other. -/
theorem linked_program_runs_alike (first more : List Instruction) (program linked : Program)
    (hprogram : Program.ofList first = .ok program)
    (hlinked : Program.ofList (first ++ more) = .ok linked) (registers : Registers)
    (input : TokenReader) (output : Output) :
    let machine := start program registers input output
    let extended := start linked registers input output
    (∀ n, (∀ i < n, (machine.afterSteps i).registers.pc ≠ .int first.length) →
      extended.afterSteps n = { machine.afterSteps n with program := linked } ∧
        ((machine.afterSteps n).registers.pc ≠ .int first.length →
          (extended.afterSteps n).step.2 = (machine.afterSteps n).step.2)) ∧
    (∀ n, (machine.afterSteps n).halted = true →
      extended.afterSteps n = { machine.afterSteps n with program := linked }) ∧
    ∀ fuel budget, (machine.run fuel budget).1.registers.pc ≠ .int first.length ∨
        (∃ taken, (machine.run fuel budget).2 = some (.ok taken)) →
      extended.run fuel budget =
        ({ (machine.run fuel budget).1 with program := linked }, (machine.run fuel budget).2) := by
  intro machine extended
  have hembeds := Program.embeds_of_append hprogram hlinked
  have hinside := inside_start program registers input output
  rw [← Program.size_of_ofList hprogram]
  refine ⟨?_, ?_, ?_⟩
  · intro n hbefore
    have hstate : extended.afterSteps n = (machine.afterSteps n).onto linked :=
      hinside.afterSteps_linked hembeds n hbefore
    refine ⟨hstate, fun hhere ↦ ?_⟩
    rw [hstate, (hinside.afterSteps n).step_linked hembeds hhere]
  · intro n hhalted
    exact hinside.afterSteps_linked hembeds n fun i hi ↦
      hinside.pc_ne_size_of_halted rfl hhalted (Nat.le_of_lt hi)
  · intro fuel budget hends
    refine hinside.runFrom_linked hembeds budget machine.steps fuel ?_
    rcases hends with hends | ⟨taken, hok⟩
    · exact hends
    · have hrun : machine.run fuel budget =
          ((machine.run fuel budget).1, some (.ok taken)) := by rw [← hok]
      have hcurrent := (run_of_ok rfl hrun).2.1
      have hlast : InProgram program (machine.run fuel budget).1 :=
        runFrom_preserves (fun _ ↦ inProgram_step) budget machine.steps fuel machine
          hinside.inProgram
      intro hend
      have hnone := hlast.current?_eq_none_iff.mpr hend
      rw [hcurrent] at hnone
      contradiction

/-- Behind a program that halts, a label and a jump to a label of the program change nothing. -/
theorem linked_program_of_taken_jump :
    let first : List Instruction := [.jumpIfZero "end", .add (.int 0), .label "end", .halt]
    let more : List Instruction := [.label "more", .jump "end"]
    ∃ program linked, Program.ofList first = .ok program ∧
      Program.ofList (first ++ more) = .ok linked ∧
      ((start program { r := [] }).run 3 .unlimited).2 = some (.ok 3) ∧
      (start linked { r := [] }).run 3 .unlimited =
        ({ ((start program { r := [] }).run 3 .unlimited).1 with program := linked },
          some (.ok 3)) := by
  intro first more
  let program : Program :=
    ⟨first.toArray, [("end", 2)], rfl, by decide, Labels.targets_of_undefined? rfl⟩
  let linked : Program :=
    ⟨(first ++ more).toArray, [("end", 2), ("more", 4)], rfl, by decide,
      Labels.targets_of_undefined? rfl⟩
  have hprogram : Program.ofList first = .ok program := rfl
  have hlinked : Program.ofList (first ++ more) = .ok linked := rfl
  have hresult : ((start program { r := [] }).run 3 .unlimited).2 = some (.ok 3) := rfl
  obtain ⟨-, -, hruns⟩ :=
    linked_program_runs_alike first more program linked hprogram hlinked { r := [] } {} {}
  refine ⟨program, linked, hprogram, hlinked, hresult, ?_⟩
  rw [hruns 3 .unlimited (Or.inr ⟨3, hresult⟩), hresult]

end Machine

end Accumulator
