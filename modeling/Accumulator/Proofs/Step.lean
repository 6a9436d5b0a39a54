import Accumulator.Machine.Step
import Accumulator.Proofs.Labels
import Accumulator.Proofs.Tokens

/-!
The anatomy of a step. A step that is not idle first executes the instruction at the program
counter (`attempt`), which may fail, and then commits the displacement (`commit`), which hands the
new state to the trace. `step_cases` says that there is no other way for a step to go, `Frame` what
executing an instruction never touches, and `execute_displacement` where it may send the program
counter. Two machines at the same instruction are compared by `execute_congr` and `attempt_congr`.
-/

set_option autoImplicit false
set_option relaxedAutoImplicit false

namespace Accumulator

/-- The index of the register that the instruction works on. -/
def Instruction.index? : Instruction → Option Value
  | .add index | .sub index | .store index | .load index => some index
  | _ => none

namespace Machine

variable {machine after : Machine} {instruction : Instruction} {displacement : Int}

/-! ### The current instruction -/

theorem current?_eq_some_iff (machine : Machine) (instruction : Instruction) :
    machine.current? = some instruction ↔
      ∃ i : Nat, machine.registers.pc.toInt = i ∧
        machine.program.instructions[i]? = some instruction := by
  simp only [current?, Option.bind_eq_bind, Option.bind_eq_some_iff, Value.index?_eq_some_iff]
  constructor
  · rintro ⟨i, ⟨hpc, -⟩, hat⟩
    exact ⟨i, hpc, hat⟩
  · rintro ⟨i, hpc, hat⟩
    exact ⟨i, ⟨hpc, (Array.getElem?_eq_some_iff.mp hat).1⟩, hat⟩

theorem current?_eq_none_iff (machine : Machine) :
    machine.current? = none ↔
      machine.registers.pc.toInt < 0 ∨ machine.program.size ≤ machine.registers.pc.toInt := by
  rw [← Value.index?_eq_none_iff]
  unfold current?
  cases h : machine.registers.pc.index? machine.program.size with
  | none => simp
  | some i =>
    obtain ⟨-, hlt⟩ := (Value.index?_eq_some_iff _ _ _).mp h
    have hlt' : i < machine.program.instructions.size := hlt
    simp [hlt']

/-! ### Attempt and commitment -/

/-- What a step does before anything is committed. -/
def attempt (machine : Machine) : Machine × Except Failure Int :=
  match machine.current? with
  | none => (machine, .error (.ofFault (.pcOutOfRange machine.registers.pc machine.program.size)))
  | some instruction => machine.execute instruction

theorem attempt_of_no_current (hcurrent : machine.current? = none) :
    machine.attempt =
      (machine, .error (.ofFault (.pcOutOfRange machine.registers.pc machine.program.size))) := by
  unfold attempt
  rw [hcurrent]

theorem attempt_of_current (hcurrent : machine.current? = some instruction) :
    machine.attempt = machine.execute instruction := by
  unfold attempt
  rw [hcurrent]

/-- What a step does after its instruction was executed. -/
def commit (machine : Machine) (displacement : Int) : Machine × Except Failure Bool :=
  match (machine.advance displacement).deliver with
  | (traced, .error failure) => (traced, .error failure)
  | (traced, .ok ()) => (traced, .ok !(machine.advance displacement).halted)

theorem step_of_running (hrunning : machine.halted = false) :
    machine.step = match machine.attempt with
      | (after, .error failure) => (after, .error failure)
      | (after, .ok displacement) => after.commit displacement := by
  unfold step attempt
  rw [hrunning]
  cases machine.current? with
  | none => rfl
  | some instruction => rfl

theorem step_of_no_current (hrunning : machine.halted = false)
    (hcurrent : machine.current? = none) :
    machine.step =
      (machine, .error (.ofFault (.pcOutOfRange machine.registers.pc machine.program.size))) := by
  rw [step_of_running hrunning, attempt_of_no_current hcurrent]

/-- A step is idle, fails before it commits anything, or commits. -/
theorem step_cases (machine : Machine) :
    (machine.halted = true ∧ machine.step = (machine, .ok false)) ∨
    (∃ after failure, machine.halted = false ∧ machine.attempt = (after, .error failure) ∧
      machine.step = (after, .error failure)) ∨
    (∃ after displacement, machine.halted = false ∧
      machine.attempt = (after, .ok displacement) ∧
      machine.step = after.commit displacement) := by
  cases hhalted : machine.halted with
  | true => exact Or.inl ⟨rfl, step_of_halted hhalted⟩
  | false =>
    have hstep := step_of_running hhalted
    rcases hattempt : machine.attempt with ⟨after, result⟩
    rw [hattempt] at hstep
    cases result with
    | error failure => exact Or.inr (Or.inl ⟨after, failure, rfl, rfl, hstep⟩)
    | ok displacement => exact Or.inr (Or.inr ⟨after, displacement, rfl, rfl, hstep⟩)

/-- The machine after a step that was executed, but for what it reported. -/
def moved (machine : Machine) (displacement : Int) : Machine :=
  { machine with
    registers :=
      { machine.registers with pc := .int (machine.registers.pc.toInt + displacement) }
    halted := decide (displacement = 0) || machine.halted
    steps := machine.steps + 1 }

theorem exists_journal_advance (machine : Machine) (displacement : Int) :
    ∃ journal, machine.advance displacement = { machine.moved displacement with journal } := by
  by_cases h : displacement = 0
  · refine ⟨machine.journal.push (.halted machine.registers.pc (machine.steps + 1)), ?_⟩
    simp [advance, moved, report, h]
  · refine ⟨machine.journal, ?_⟩
    have hmoved : machine.registers.pc.toInt + displacement ≠ machine.registers.pc.toInt := by
      omega
    simp [advance, moved, h, hmoved]

/-- Delivering a snapshot touches the journal at most. -/
theorem exists_journal_deliver (machine : Machine) :
    ∃ journal, machine.deliver.1 = { machine with journal } := by
  unfold deliver
  split
  · exact ⟨_, rfl⟩
  · split
    · exact ⟨_, rfl⟩
    · split <;> exact ⟨_, rfl⟩

theorem exists_journal_commit (machine : Machine) (displacement : Int) :
    ∃ journal, (machine.commit displacement).1 =
      { machine.moved displacement with journal } := by
  have hcommit : (machine.commit displacement).1 =
      (machine.advance displacement).deliver.1 := by
    unfold commit
    split <;> simp_all
  obtain ⟨journal, hdelivered⟩ := (machine.advance displacement).exists_journal_deliver
  obtain ⟨_, hadvanced⟩ := machine.exists_journal_advance displacement
  refine ⟨journal, ?_⟩
  rw [hcommit, hdelivered, hadvanced]

@[simp] theorem commit_program (machine : Machine) (displacement : Int) :
    (machine.commit displacement).1.program = machine.program := by
  obtain ⟨journal, hcommit⟩ := machine.exists_journal_commit displacement
  rw [hcommit, moved]

@[simp] theorem commit_registers (machine : Machine) (displacement : Int) :
    (machine.commit displacement).1.registers =
      { machine.registers with pc := .int (machine.registers.pc.toInt + displacement) } := by
  obtain ⟨journal, hcommit⟩ := machine.exists_journal_commit displacement
  rw [hcommit, moved]

@[simp] theorem commit_steps (machine : Machine) (displacement : Int) :
    (machine.commit displacement).1.steps = machine.steps + 1 := by
  obtain ⟨journal, hcommit⟩ := machine.exists_journal_commit displacement
  rw [hcommit, moved]

@[simp] theorem commit_halted (machine : Machine) (displacement : Int) :
    (machine.commit displacement).1.halted = (decide (displacement = 0) || machine.halted) := by
  obtain ⟨journal, hcommit⟩ := machine.exists_journal_commit displacement
  rw [hcommit, moved]

/-- A commitment fails as its delivery does, and otherwise tells whether the machine has halted. -/
theorem commit_snd (machine : Machine) (displacement : Int) :
    (machine.commit displacement).2 =
      (machine.advance displacement).deliver.2.map fun _ ↦
        !(machine.advance displacement).halted := by
  unfold commit
  rcases (machine.advance displacement).deliver with ⟨traced, _ | _⟩ <;> rfl

/-- An untraced machine gets over the commitment without a failure. -/
theorem commit_of_untraced (huntraced : machine.trace = none) (displacement : Int) :
    machine.commit displacement =
      (machine.advance displacement, .ok !(machine.advance displacement).halted) := by
  obtain ⟨_, hadvanced⟩ := machine.exists_journal_advance displacement
  have htrace : (machine.advance displacement).trace = none := by
    rw [hadvanced, moved]
    exact huntraced
  unfold commit deliver
  rw [htrace]

/-- A commitment that does not fail tells whether the machine has halted. -/
theorem halted_of_commit {progressed : Bool}
    (h : (machine.commit displacement).2 = .ok progressed) :
    (machine.commit displacement).1.halted = !progressed := by
  obtain ⟨journal, hdelivered⟩ := (machine.advance displacement).exists_journal_deliver
  unfold commit at h ⊢
  rcases hdeliver : (machine.advance displacement).deliver with ⟨traced, _ | _⟩
  · rw [hdeliver] at h
    contradiction
  · rw [hdeliver] at h hdelivered
    simp only [Except.ok.injEq] at h hdelivered ⊢
    rw [hdelivered, ← h, Bool.not_not]

/-! ### Execution -/

/-- What no instruction touches: everything but the accumulator, the numbered registers and what
goes over the console. The program counter is moved only afterwards. -/
structure Frame (before after : Machine) : Prop where
  program : after.program = before.program
  pc : after.registers.pc = before.registers.pc
  trace : after.trace = before.trace
  halted : after.halted = before.halted
  steps : after.steps = before.steps
  journal : after.journal = before.journal
  refuses : after.output.refuses = before.output.refuses
  interrupts : after.input.interrupts = before.input.interrupts

theorem Frame.refl (machine : Machine) : Frame machine machine :=
  ⟨rfl, rfl, rfl, rfl, rfl, rfl, rfl, rfl⟩

theorem frame_accumulate (machine : Machine) (index : Value)
    (combine : Value → Value → Value) : Frame machine (machine.accumulate index combine).1 := by
  unfold accumulate
  split
  · exact ⟨rfl, rfl, rfl, rfl, rfl, rfl, rfl, rfl⟩
  · exact Frame.refl machine

theorem frame_storeAcc (machine : Machine) (index : Value) :
    Frame machine (machine.storeAcc index).1 := by
  unfold storeAcc
  split
  · rename_i registers hstore
    obtain ⟨i, rfl⟩ := Registers.exists_set_of_store hstore
    exact ⟨rfl, rfl, rfl, rfl, rfl, rfl, rfl, rfl⟩
  · exact Frame.refl machine

theorem frame_readAcc (machine : Machine) (prompt : String) :
    Frame machine (machine.readAcc prompt).1 := by
  have hrefuses := machine.output.refuses_write prompt
  have hinterrupts : machine.input.nextInteger.2.interrupts = machine.input.interrupts := by
    rw [TokenReader.nextInteger_snd, TokenReader.interrupts_next]
  unfold readAcc
  split
  · rename_i hwrite
    rw [hwrite] at hrefuses
    exact ⟨rfl, rfl, rfl, rfl, rfl, rfl, hrefuses, rfl⟩
  · rename_i hwrite
    rw [hwrite] at hrefuses
    split
    · rename_i hnext
      rw [hnext] at hinterrupts
      exact ⟨rfl, rfl, rfl, rfl, rfl, rfl, hrefuses, hinterrupts⟩
    · rename_i hnext
      rw [hnext] at hinterrupts
      exact ⟨rfl, rfl, rfl, rfl, rfl, rfl, hrefuses, hinterrupts⟩

theorem frame_writeAcc (machine : Machine) (prompt : String) :
    Frame machine (machine.writeAcc prompt).1 := by
  unfold writeAcc
  split
  · exact Frame.refl machine
  · rename_i acc _
    have hrefuses := machine.output.refuses_write s!"{prompt}{acc}\n"
    split
    · rename_i hwrite
      rw [hwrite] at hrefuses
      exact ⟨rfl, rfl, rfl, rfl, rfl, rfl, hrefuses, rfl⟩
    · rename_i hwrite
      rw [hwrite] at hrefuses
      exact ⟨rfl, rfl, rfl, rfl, rfl, rfl, hrefuses, rfl⟩

theorem frame_execute (machine : Machine) (instruction : Instruction) :
    Frame machine (machine.execute instruction).1 := by
  cases instruction with
  | label name => exact Frame.refl machine
  | add index => exact machine.frame_accumulate index _
  | sub index => exact machine.frame_accumulate index _
  | store index => exact machine.frame_storeAcc index
  | load index => exact machine.frame_accumulate index _
  | jump target => exact Frame.refl machine
  | jumpIfZero target => exact Frame.refl machine
  | jumpIfNonNegative target => exact Frame.refl machine
  | halt => exact Frame.refl machine
  | input prompt => exact machine.frame_readAcc prompt
  | output prompt => exact machine.frame_writeAcc prompt

theorem frame_attempt (machine : Machine) : Frame machine machine.attempt.1 := by
  unfold attempt
  split
  · exact Frame.refl machine
  · exact machine.frame_execute _

/-- A step of an untraced machine whose instruction does not fail moves it on, and makes progress
unless the displacement is none. -/
theorem step_of_attempt_ok (hrunning : machine.halted = false) (huntraced : machine.trace = none)
    (hattempt : machine.attempt = (after, .ok displacement)) :
    ∃ journal, machine.step =
      ({ after.moved displacement with journal }, .ok (decide (displacement ≠ 0))) := by
  have hframe := machine.frame_attempt
  rw [hattempt] at hframe
  obtain ⟨journal, hadvance⟩ := after.exists_journal_advance displacement
  have hstill : after.halted = false := hframe.halted.trans hrunning
  refine ⟨journal, ?_⟩
  rw [step_of_running hrunning, hattempt]
  simp only
  rw [commit_of_untraced (hframe.trace.trans huntraced), hadvance]
  simp [moved, hstill]

/-- An untraced machine reports nothing while it makes progress. -/
theorem step_of_displacement (hrunning : machine.halted = false) (huntraced : machine.trace = none)
    (hattempt : machine.attempt = (after, .ok displacement)) (hmoves : displacement ≠ 0) :
    machine.step =
      ({ after with
          registers :=
            { after.registers with pc := .int (after.registers.pc.toInt + displacement) }
          steps := after.steps + 1 },
        .ok true) := by
  have hframe := machine.frame_attempt
  rw [hattempt] at hframe
  have hstill : after.halted = false := hframe.halted.trans hrunning
  have hne : after.registers.pc.toInt + displacement ≠ after.registers.pc.toInt := by omega
  rw [step_of_running hrunning, hattempt]
  simp only
  rw [commit_of_untraced (hframe.trace.trans huntraced), advance, if_neg hne]
  simp only [hstill, Bool.not_false]

/-- A step of an untraced machine that moves the program counter makes progress. -/
theorem step_of_moves (huntraced : machine.trace = none)
    (hmoves : machine.step.1.registers.pc.toInt ≠ machine.registers.pc.toInt) :
    machine.step.2 = .ok true ∧ machine.step.1.halted = false := by
  have hframe := machine.frame_attempt
  rcases machine.step_cases with ⟨-, hstep⟩ | ⟨after, failure, -, hattempt, hstep⟩ |
    ⟨after, displacement, hrunning, hattempt, -⟩
  · rw [hstep] at hmoves
    contradiction
  · rw [hattempt] at hframe
    rw [hstep, hframe.pc] at hmoves
    contradiction
  · rw [hattempt] at hframe
    have hstill : after.halted = false := hframe.halted.trans hrunning
    obtain ⟨_, hstep⟩ := step_of_attempt_ok hrunning huntraced hattempt
    have hne : displacement ≠ 0 := by
      rintro rfl
      rw [hstep, moved, hframe.pc, Value.toInt_int, Int.add_zero] at hmoves
      contradiction
    rw [hstep, moved, hstill, decide_eq_true hne, decide_eq_false hne]
    exact ⟨rfl, rfl⟩

theorem steps_le_step (machine : Machine) : machine.steps ≤ machine.step.1.steps := by
  have hframe := machine.frame_attempt
  rcases machine.step_cases with ⟨-, hstep⟩ | ⟨after, failure, -, hattempt, hstep⟩ |
    ⟨after, displacement, -, hattempt, hstep⟩
  · exact Nat.le_of_eq (by rw [hstep])
  · rw [hattempt] at hframe
    exact Nat.le_of_eq (by rw [hstep, hframe.steps])
  · rw [hattempt] at hframe
    rw [hstep, commit_steps, hframe.steps]
    exact Nat.le_succ _

/-- What a step leaves as it is, whether it fails or not. -/
theorem step_keeps (machine : Machine) :
    machine.step.1.program = machine.program ∧ machine.step.1.trace = machine.trace ∧
      machine.step.1.input.interrupts = machine.input.interrupts := by
  have hframe := machine.frame_attempt
  rcases machine.step_cases with ⟨-, hstep⟩ | ⟨after, failure, -, hattempt, hstep⟩ |
    ⟨after, displacement, -, hattempt, hstep⟩
  · rw [hstep]
    exact ⟨rfl, rfl, rfl⟩
  · rw [hattempt] at hframe
    rw [hstep]
    exact ⟨hframe.program, hframe.trace, hframe.interrupts⟩
  · rw [hattempt] at hframe
    obtain ⟨journal, hcommit⟩ := after.exists_journal_commit displacement
    rw [hstep, hcommit]
    exact ⟨hframe.program, hframe.trace, hframe.interrupts⟩

theorem trace_step (machine : Machine) : machine.step.1.trace = machine.trace :=
  machine.step_keeps.2.1

theorem interrupts_step (machine : Machine) :
    machine.step.1.input.interrupts = machine.input.interrupts :=
  machine.step_keeps.2.2

/-! ### Two machines at the same instruction -/

/-- What goes into the accumulator is computed of two numbers, or is the value of the register. -/
def IsCombination (combine : Value → Value → Value) : Prop :=
  (∃ f : Int → Int → Int, combine = fun acc value ↦ .int (f acc.toInt value.toInt)) ∨
    combine = fun _ value ↦ value

section

variable {R : Machine × Except Failure Int → Machine × Except Failure Int → Prop}
  {first second : Machine}

/-- Machines that take the same jumps execute an instruction alike if they do so with what
instructions do to the registers and to the console. -/
theorem execute_congr (instruction : Instruction)
    (hstay : ∀ result, R (first, result) (second, result))
    (hjump : ∀ target, second.jump target = first.jump target)
    (hacc : second.registers.acc.toInt = first.registers.acc.toInt)
    (haccumulate : ∀ index combine, instruction.index? = some index → IsCombination combine →
      R (first.accumulate index combine) (second.accumulate index combine))
    (hstore : ∀ index, instruction.index? = some index →
      R (first.storeAcc index) (second.storeAcc index))
    (hread : ∀ prompt, instruction = .input prompt →
      R (first.readAcc prompt) (second.readAcc prompt))
    (hwrite : ∀ prompt, R (first.writeAcc prompt) (second.writeAcc prompt)) :
    R (first.execute instruction) (second.execute instruction) := by
  cases instruction with
  | label name => exact hstay _
  | add index =>
    simp only [execute]
    exact haccumulate index _ rfl (Or.inl ⟨(· + ·), rfl⟩)
  | sub index =>
    simp only [execute]
    exact haccumulate index _ rfl (Or.inl ⟨(· - ·), rfl⟩)
  | store index => exact hstore index rfl
  | load index =>
    simp only [execute]
    exact haccumulate index _ rfl (Or.inr rfl)
  | jump target =>
    simp only [execute, hjump]
    exact hstay _
  | jumpIfZero target =>
    simp only [execute, hjump, hacc]
    exact hstay _
  | jumpIfNonNegative target =>
    simp only [execute, hjump, hacc]
    exact hstay _
  | halt => exact hstay _
  | input prompt => exact hread prompt rfl
  | output prompt => exact hwrite prompt

/-- Machines at the same place of the same program go alike if they execute alike what stands
there. -/
theorem attempt_congr (hprogram : second.program = first.program)
    (hpc : second.registers.pc = first.registers.pc)
    (hstay : ∀ result, R (first, result) (second, result))
    (hexecute : ∀ instruction, first.current? = some instruction →
      R (first.execute instruction) (second.execute instruction)) :
    R first.attempt second.attempt := by
  have hsame : second.current? = first.current? := by
    unfold current?
    rw [hprogram, hpc]
  unfold attempt
  rw [hsame, hprogram, hpc]
  cases hcurrent : first.current? with
  | none => exact hstay _
  | some instruction => exact hexecute instruction hcurrent

end

/-! ### Under another trace -/

/-- The machine with another trace and another journal. -/
def watched (machine : Machine) (trace : Option TraceSink) (journal : Array Event) : Machine :=
  { machine with trace, journal }

/-- The machine without its trace. -/
def untraced (machine : Machine) : Machine := { machine with trace := none }

section

variable (trace : Option TraceSink) (journal : Array Event)

theorem accumulate_watched (machine : Machine) (index : Value)
    (combine : Value → Value → Value) :
    (machine.watched trace journal).accumulate index combine =
      ((machine.accumulate index combine).1.watched trace journal,
        (machine.accumulate index combine).2) := by
  simp only [accumulate, watched]
  split <;> rfl

/-- Instructions neither look at the trace nor at the journal. -/
theorem execute_watched (machine : Machine) (instruction : Instruction) :
    (machine.watched trace journal).execute instruction =
      ((machine.execute instruction).1.watched trace journal,
        (machine.execute instruction).2) := by
  refine execute_congr (R := fun first second ↦ second = (first.1.watched trace journal, first.2))
    instruction (fun _ ↦ rfl) (fun _ ↦ rfl) rfl ?_ ?_ ?_ ?_
  · intro index combine _ _
    exact machine.accumulate_watched trace journal index combine
  · intro index _
    simp only [storeAcc, watched]
    split <;> rfl
  · intro prompt _
    simp only [readAcc, watched]
    split
    · rfl
    · split <;> rfl
  · intro prompt
    simp only [writeAcc, watched]
    split
    · rfl
    · split <;> rfl

theorem attempt_watched (machine : Machine) :
    (machine.watched trace journal).attempt =
      (machine.attempt.1.watched trace journal, machine.attempt.2) := by
  exact attempt_congr (R := fun first second ↦ second = (first.1.watched trace journal, first.2))
    rfl rfl (fun _ ↦ rfl) fun instruction _ ↦ machine.execute_watched trace journal instruction

end

theorem attempt_untraced (machine : Machine) :
    machine.untraced.attempt = (machine.attempt.1.untraced, machine.attempt.2) := by
  have hleft : machine.attempt.1.untraced = machine.attempt.1.watched none machine.journal := by
    rw [watched, ← machine.frame_attempt.journal, untraced]
  rw [hleft]
  exact machine.attempt_watched none machine.journal

/-- A step fails without a trace only if its instruction fails. -/
theorem attempt_of_untraced_step {failure : Failure}
    (h : machine.untraced.step.2 = .error failure) :
    machine.halted = false ∧ machine.attempt.2 = .error failure := by
  rcases machine.untraced.step_cases with ⟨-, hstep⟩ | ⟨after, cause, hhalted, hattempt, hstep⟩ |
    ⟨after, displacement, -, hattempt, hstep⟩
  · rw [hstep] at h
    contradiction
  · rw [hstep] at h
    obtain rfl : cause = failure := Except.error.inj h
    rw [attempt_untraced] at hattempt
    exact ⟨hhalted, congrArg Prod.snd hattempt⟩
  · have htrace : after.trace = none := by
      have hframe := machine.untraced.frame_attempt
      rw [hattempt] at hframe
      exact hframe.trace
    rw [hstep, commit_of_untraced htrace] at h
    contradiction

/-! ### Displacements -/

theorem accumulate_displacement {index : Value} {combine : Value → Value → Value}
    (h : (machine.accumulate index combine).2 = .ok displacement) : displacement = 1 := by
  unfold accumulate at h
  split at h
  · exact (Except.ok.inj h).symm
  · contradiction

theorem storeAcc_displacement {index : Value}
    (h : (machine.storeAcc index).2 = .ok displacement) : displacement = 1 := by
  unfold storeAcc at h
  split at h
  · exact (Except.ok.inj h).symm
  · contradiction

theorem readAcc_displacement {prompt : String}
    (h : (machine.readAcc prompt).2 = .ok displacement) : displacement = 1 := by
  unfold readAcc at h
  split at h
  · contradiction
  · split at h
    · exact (Except.ok.inj h).symm
    · contradiction

theorem writeAcc_displacement {prompt : String}
    (h : (machine.writeAcc prompt).2 = .ok displacement) : displacement = 1 := by
  unfold writeAcc at h
  split at h
  · contradiction
  · split at h
    · contradiction
    · exact (Except.ok.inj h).symm

/-- A displacement is 0 for a halt, that to the target for a jump that is taken, 1 otherwise. -/
theorem execute_displacement (h : (machine.execute instruction).2 = .ok displacement) :
    (instruction = .halt ∧ displacement = 0) ∨ (instruction ≠ .halt ∧ displacement = 1) ∨
      ∃ target, instruction.target? = some target ∧ machine.jump target = .ok displacement := by
  cases instruction with
  | label name => exact Or.inr (Or.inl ⟨by simp, (Except.ok.inj h).symm⟩)
  | add index => exact Or.inr (Or.inl ⟨by simp, accumulate_displacement h⟩)
  | sub index => exact Or.inr (Or.inl ⟨by simp, accumulate_displacement h⟩)
  | store index => exact Or.inr (Or.inl ⟨by simp, storeAcc_displacement h⟩)
  | load index => exact Or.inr (Or.inl ⟨by simp, accumulate_displacement h⟩)
  | jump target => exact Or.inr (Or.inr ⟨target, rfl, h⟩)
  | jumpIfZero target =>
    simp only [execute] at h
    split at h
    · exact Or.inr (Or.inr ⟨target, rfl, h⟩)
    · exact Or.inr (Or.inl ⟨by simp, (Except.ok.inj h).symm⟩)
  | jumpIfNonNegative target =>
    simp only [execute] at h
    split at h
    · exact Or.inr (Or.inr ⟨target, rfl, h⟩)
    · exact Or.inr (Or.inl ⟨by simp, (Except.ok.inj h).symm⟩)
  | halt => exact Or.inl ⟨rfl, (Except.ok.inj h).symm⟩
  | input prompt => exact Or.inr (Or.inl ⟨by simp, readAcc_displacement h⟩)
  | output prompt => exact Or.inr (Or.inl ⟨by simp, writeAcc_displacement h⟩)

/-- The jump at the program counter has a label to go to, and that stands elsewhere. -/
theorem exists_jump_of_current {target : String} (hcurrent : machine.current? = some instruction)
    (htarget : instruction.target? = some target) :
    ∃ address : Nat, machine.program.address target = .ok address ∧
      machine.jump target = .ok (address - machine.registers.pc.toInt) ∧
      address < machine.program.size ∧ (address : Int) ≠ machine.registers.pc.toInt := by
  obtain ⟨i, hpc, hat⟩ := (machine.current?_eq_some_iff instruction).mp hcurrent
  obtain ⟨address, haddress, hlt, hne⟩ := Program.exists_address_of_target hat htarget
  refine ⟨address, haddress, ?_, hlt, ?_⟩
  · unfold jump
    rw [haddress]
  · rw [hpc]
    exact_mod_cast hne

/-- Where an instruction that was executed leads: nowhere from a halt and only from there, else to
another address, which lies in the program or right behind it. -/
theorem attempt_destination (h : machine.attempt.2 = .ok displacement) :
    ∃ instruction, machine.current? = some instruction ∧
      (displacement = 0 ↔ instruction = .halt) ∧
      ∃ next : Nat, machine.registers.pc.toInt + displacement = next ∧
        next ≤ machine.program.size := by
  cases hcurrent : machine.current? with
  | none =>
    rw [attempt_of_no_current hcurrent] at h
    contradiction
  | some instruction =>
    rw [attempt_of_current hcurrent] at h
    obtain ⟨i, hpc, hat⟩ := (machine.current?_eq_some_iff instruction).mp hcurrent
    have hlt : i < machine.program.size := (Array.getElem?_eq_some_iff.mp hat).1
    refine ⟨instruction, rfl, ?_⟩
    rcases execute_displacement h with ⟨rfl, rfl⟩ | ⟨hhalt, rfl⟩ | ⟨target, htarget, hjump⟩
    · exact ⟨by simp, i, by omega, by omega⟩
    · exact ⟨by simp [hhalt], i + 1, by omega, by omega⟩
    · obtain ⟨address, -, htaken, hinside, hne⟩ := exists_jump_of_current hcurrent htarget
      have hdisplacement : displacement = address - machine.registers.pc.toInt :=
        (Except.ok.inj (htaken.symm.trans hjump)).symm
      refine ⟨?_, address, by omega, by omega⟩
      constructor
      · intro hzero
        omega
      · rintro rfl
        contradiction

end Machine

end Accumulator
