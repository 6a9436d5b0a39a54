import Accumulator.Proofs.Reference
import Accumulator.Proofs.Session
import Accumulator.Proofs.Step

/-!
The machine against the reference interpreter. What the interpreter keeps can be read off a machine
(`toReference`), and a step of the machine is there a step of the interpreter (`observedStep_eq`):
a displacement leads where the search for the label leads, and the only displacement that leads
nowhere is that of a halt. Runs agree by induction (`run_agrees_with_reference`).
-/

set_option autoImplicit false
set_option relaxedAutoImplicit false

namespace Accumulator

/-! ### Labels and registers -/

namespace Reference

/-- The search for a label finds its address. -/
theorem destination?_of_address {program : Program} {name : String} {address : Nat}
    (haddress : program.address name = .ok address) :
    destination? program.instructions.toList name = some address := by
  have hat := (program.address_eq_ok_iff name address).mp haddress
  rw [← Array.getElem?_toList] at hat
  obtain ⟨hlt, hlabel⟩ := List.getElem?_eq_some_iff.mp hat
  unfold destination?
  rw [List.findIdx?_eq_some_iff_getElem]
  refine ⟨hlt, by simp [hlabel], ?_⟩
  intro j hj hearlier
  have hsame : program.address name = .ok j := by
    rw [program.address_eq_ok_iff, ← Array.getElem?_toList, List.getElem?_eq_some_iff]
    exact ⟨by omega, by simpa using hearlier⟩
  have heq : address = j := Except.ok.inj (haddress.symm.trans hsame)
  omega

theorem register?_of_inRange {r : List Value} {index : Value} {i : Nat}
    (hindex : index.index? r.length = some i) :
    register? r index = some (r.getD i default) ∧ index.toInt.toNat = i := by
  obtain ⟨hi, hlt⟩ := (Value.index?_eq_some_iff _ _ _).mp hindex
  have hnonneg : ¬ index.toInt < 0 := by omega
  have hnat : index.toInt.toNat = i := by omega
  refine ⟨?_, hnat⟩
  unfold register?
  rw [if_neg hnonneg, hnat, List.getD_eq_getElem?_getD, List.getElem?_eq_getElem hlt]
  rfl

theorem register?_of_outOfRange {r : List Value} {index : Value}
    (hindex : index.index? r.length = none) : register? r index = none := by
  unfold register?
  rcases (Value.index?_eq_none_iff _ _).mp hindex with hneg | hlarge
  · rw [if_pos hneg]
  · have hnonneg : ¬ index.toInt < 0 := by omega
    rw [if_neg hnonneg, List.getElem?_eq_none_iff]
    omega

/-- How things stand after a step of a machine with such a result. -/
def Outcome.ofStep : Except Failure Bool → Outcome
  | .ok true => .running
  | .ok false => .stopped
  | .error failure => .failed failure

/-- How things stand after a run of a machine, which has no result if its fuel was used up. -/
def Outcome.ofRun : Option (Except Failure Nat) → Outcome
  | none => .running
  | some (.ok _) => .stopped
  | some (.error failure) => .failed failure

end Reference

namespace Machine

open Reference (State Outcome)

variable {instructions : List Instruction} {machine after : Machine} {instruction : Instruction}

/-! ### What the reference interpreter sees of a machine -/

/-- What the reference interpreter would keep of a machine. -/
def toReference (machine : Machine) : State where
  acc := machine.registers.acc
  r := machine.registers.r
  index := machine.registers.pc.toInt.toNat
  tokens := machine.input.remaining
  written := machine.output.written

/-- A machine on the instruction list, with its program counter at an index, that has no trace, an
output that takes every text and an input that no interrupt ends. -/
structure Plain (instructions : List Instruction) (machine : Machine) : Prop where
  program : machine.program.instructions = instructions.toArray
  index : ∃ index : Nat, machine.registers.pc = .int index
  accepting : ∀ writes, machine.output.refuses writes = false
  uninterrupted : machine.input.interrupts = false
  untraced : machine.trace = none

theorem Plain.pc_eq (h : Plain instructions machine) :
    machine.registers.pc = .int machine.toReference.index := by
  obtain ⟨index, hpc⟩ := h.index
  unfold toReference
  rw [hpc, Value.toInt_int, Int.toNat_natCast]

/-- A step of a machine as the reference interpreter sees it. -/
def observedStep (machine : Machine) : State × Outcome :=
  (machine.step.1.toReference, .ofStep machine.step.2)

theorem Plain.observedStep_of_ok {displacement : Int} (h : Plain instructions machine)
    (hrunning : machine.halted = false) (hcurrent : machine.current? = some instruction)
    (hexecute : machine.execute instruction = (after, .ok displacement)) :
    machine.observedStep = ((after.moved displacement).toReference,
      if displacement = 0 then .stopped else .running) := by
  have hframe := machine.frame_execute instruction
  rw [hexecute] at hframe
  have hafter : after.halted = false := hframe.halted.trans hrunning
  obtain ⟨journal, hadvance⟩ := after.exists_journal_advance displacement
  have hstep := step_of_running hrunning
  rw [attempt_of_current hcurrent, hexecute] at hstep
  unfold observedStep
  rw [hstep]
  simp only
  rw [commit_of_untraced (hframe.trace.trans h.untraced), hadvance]
  by_cases hzero : displacement = 0
  · simp [toReference, moved, hzero, Outcome.ofStep]
  · simp [toReference, moved, hzero, hafter, Outcome.ofStep]

theorem Plain.observedStep_of_next (h : Plain instructions machine)
    (hrunning : machine.halted = false) (hcurrent : machine.current? = some instruction)
    (hexecute : machine.execute instruction = (after, .ok 1)) :
    machine.observedStep = after.toReference.next := by
  have hframe := machine.frame_execute instruction
  rw [hexecute] at hframe
  obtain ⟨index, hpc⟩ := h.index
  have hafter : after.registers.pc = .int index := hframe.pc.trans hpc
  have hnext : ((index : Int) + 1).toNat = index + 1 := by omega
  rw [h.observedStep_of_ok hrunning hcurrent hexecute]
  simp [State.next, toReference, moved, hafter, hnext]

theorem observedStep_of_error {failure : Failure} (hrunning : machine.halted = false)
    (hcurrent : machine.current? = some instruction)
    (hexecute : machine.execute instruction = (after, .error failure)) :
    machine.observedStep = (after.toReference, .failed failure) := by
  unfold observedStep
  rw [step_of_running hrunning, attempt_of_current hcurrent, hexecute]
  rfl

/-! ### The instructions, one by one -/

theorem Plain.observedStep_accumulate {index : Value} {combine : Value → Value → Value}
    (h : Plain instructions machine) (hrunning : machine.halted = false)
    (hcurrent : machine.current? = some instruction)
    (hexecute : machine.execute instruction = machine.accumulate index combine) :
    machine.observedStep = machine.toReference.withRegister index fun value ↦
      { machine.toReference with acc := combine machine.registers.acc value } := by
  unfold accumulate at hexecute
  unfold State.withRegister
  cases hindex : index.index? machine.registers.size with
  | none =>
    rw [Registers.load_of_outOfRange hindex] at hexecute
    rw [observedStep_of_error hrunning hcurrent hexecute, toReference,
      Reference.register?_of_outOfRange hindex]
    rfl
  | some i =>
    rw [Registers.load_of_inRange hindex] at hexecute
    rw [h.observedStep_of_next hrunning hcurrent hexecute, toReference, toReference,
      (Reference.register?_of_inRange hindex).1]
    rfl

theorem Plain.observedStep_store {index : Value} (h : Plain instructions machine)
    (hrunning : machine.halted = false) (hcurrent : machine.current? = some (.store index)) :
    machine.observedStep = machine.toReference.withRegister index fun _ ↦
      { machine.toReference with
        r := machine.registers.r.set index.toInt.toNat machine.registers.acc } := by
  have hexecute : machine.execute (.store index) = machine.storeAcc index := rfl
  unfold storeAcc at hexecute
  unfold State.withRegister
  cases hindex : index.index? machine.registers.size with
  | none =>
    rw [Registers.store_of_outOfRange hindex] at hexecute
    rw [observedStep_of_error hrunning hcurrent hexecute, toReference,
      Reference.register?_of_outOfRange hindex]
    rfl
  | some i =>
    obtain ⟨hregister, hi⟩ := Reference.register?_of_inRange hindex
    rw [Registers.store_of_inRange hindex] at hexecute
    rw [h.observedStep_of_next hrunning hcurrent hexecute, toReference, toReference, hregister, hi]

/-- A displacement to a label leads where the search for the label leads, and that is never to the
jump itself. -/
theorem Plain.observedStep_jump {target : String} (h : Plain instructions machine)
    (hrunning : machine.halted = false) (hcurrent : machine.current? = some instruction)
    (htarget : instruction.target? = some target)
    (hexecute : machine.execute instruction = (machine, machine.jump target)) :
    machine.observedStep = machine.toReference.jump instructions target := by
  obtain ⟨address, haddress, hjump, -, hne⟩ := exists_jump_of_current hcurrent htarget
  have hmoves : (address : Int) - machine.registers.pc.toInt ≠ 0 := by omega
  have hdestination := Reference.destination?_of_address haddress
  rw [h.program] at hdestination
  have hnext : (machine.registers.pc.toInt + (address - machine.registers.pc.toInt)).toNat =
      address := by omega
  have hmoved : (machine.moved (address - machine.registers.pc.toInt)).toReference =
      { machine.toReference with index := address } := by
    unfold toReference moved
    rw [Value.toInt_int, hnext]
  rw [hjump] at hexecute
  rw [h.observedStep_of_ok hrunning hcurrent hexecute, if_neg hmoves, hmoved]
  unfold State.jump
  rw [hdestination]

theorem Plain.observedStep_read {prompt : String} (h : Plain instructions machine)
    (hrunning : machine.halted = false) (hcurrent : machine.current? = some (.input prompt)) :
    machine.observedStep = machine.toReference.read prompt := by
  have hexecute : machine.execute (.input prompt) = machine.readAcc prompt := rfl
  have hinteger := TokenReader.nextInteger_fst h.uninterrupted
  have hothers := machine.input.next_eq.2
  rw [← TokenReader.nextInteger_snd] at hothers
  unfold readAcc at hexecute
  rw [Output.write_of_accepting (h.accepting _)] at hexecute
  rcases hnext : machine.input.nextInteger with ⟨result, input⟩
  rw [hnext] at hexecute hinteger hothers
  simp only at hexecute hinteger hothers
  unfold State.read
  cases hremaining : machine.input.remaining with
  | nil =>
    rw [hremaining] at hinteger hothers
    subst hinteger
    rw [observedStep_of_error hrunning hcurrent hexecute]
    simp [toReference, hremaining, hothers]
  | cons token tokens =>
    rw [hremaining] at hinteger hothers
    simp only at hinteger
    subst hinteger
    cases htoken : TokenReader.integer token with
    | ok n =>
      rw [htoken] at hexecute
      rw [h.observedStep_of_next hrunning hcurrent hexecute]
      simp [toReference, hremaining, hothers, htoken, setAcc]
    | error failure =>
      rw [htoken] at hexecute
      rw [observedStep_of_error hrunning hcurrent hexecute]
      simp [toReference, hremaining, hothers, htoken]

theorem Plain.observedStep_write {prompt : String} (h : Plain instructions machine)
    (hrunning : machine.halted = false) (hcurrent : machine.current? = some (.output prompt)) :
    machine.observedStep = machine.toReference.write prompt := by
  have hexecute : machine.execute (.output prompt) = machine.writeAcc prompt := rfl
  unfold writeAcc at hexecute
  unfold State.write
  cases htext : machine.registers.acc.text with
  | error cause =>
    rw [htext] at hexecute
    rw [observedStep_of_error hrunning hcurrent hexecute]
    simp [toReference, htext]
  | ok text =>
    rw [htext] at hexecute
    simp only [Output.write_of_accepting (h.accepting _)] at hexecute
    rw [h.observedStep_of_next hrunning hcurrent hexecute]
    simp only [toReference, htext]
    rfl

/-! ### Steps and runs -/

/-- The same instruction is next. -/
theorem Plain.current?_eq (h : Plain instructions machine) :
    machine.current? = instructions[machine.toReference.index]? := by
  ext instruction
  rw [current?_eq_some_iff, h.pc_eq, Value.toInt_int, h.program]
  constructor
  · rintro ⟨i, hi, hat⟩
    rw [Int.ofNat.inj hi]
    simpa using hat
  · intro hat
    exact ⟨_, rfl, by simpa using hat⟩

theorem Plain.observedStep_eq (h : Plain instructions machine)
    (hrunning : machine.halted = false) :
    machine.observedStep = Reference.step instructions machine.toReference := by
  unfold Reference.step
  rw [← h.current?_eq]
  cases hcurrent : machine.current? with
  | none =>
    have hsize : machine.program.size = instructions.length := by
      rw [Program.size, h.program, List.size_toArray]
    unfold observedStep
    rw [step_of_no_current hrunning hcurrent, hsize, h.pc_eq]
    rfl
  | some instruction =>
    cases instruction with
    | label name => exact h.observedStep_of_next hrunning hcurrent rfl
    | add index =>
      have hexecute : machine.execute (.add index) =
        machine.accumulate index fun acc value ↦ .int (acc.toInt + value.toInt) := rfl
      exact h.observedStep_accumulate hrunning hcurrent hexecute
    | sub index =>
      have hexecute : machine.execute (.sub index) =
        machine.accumulate index fun acc value ↦ .int (acc.toInt - value.toInt) := rfl
      exact h.observedStep_accumulate hrunning hcurrent hexecute
    | store index => exact h.observedStep_store hrunning hcurrent
    | load index =>
      have hexecute : machine.execute (.load index) =
        machine.accumulate index fun _ value ↦ value := rfl
      exact h.observedStep_accumulate hrunning hcurrent hexecute
    | jump target => exact h.observedStep_jump hrunning hcurrent rfl rfl
    | jumpIfZero target =>
      by_cases hzero : machine.registers.acc.toInt = 0
      · have hexecute : machine.execute (.jumpIfZero target) = (machine, machine.jump target) :=
          congrArg (Prod.mk machine) (if_pos hzero)
        rw [h.observedStep_jump hrunning hcurrent rfl hexecute]
        exact (if_pos hzero).symm
      · have hexecute : machine.execute (.jumpIfZero target) = (machine, .ok 1) :=
          congrArg (Prod.mk machine) (if_neg hzero)
        rw [h.observedStep_of_next hrunning hcurrent hexecute]
        exact (if_neg hzero).symm
    | jumpIfNonNegative target =>
      by_cases hnonneg : 0 ≤ machine.registers.acc.toInt
      · have hexecute :
            machine.execute (.jumpIfNonNegative target) = (machine, machine.jump target) :=
          congrArg (Prod.mk machine) (if_pos hnonneg)
        rw [h.observedStep_jump hrunning hcurrent rfl hexecute]
        exact (if_pos hnonneg).symm
      · have hexecute : machine.execute (.jumpIfNonNegative target) = (machine, .ok 1) :=
          congrArg (Prod.mk machine) (if_neg hnonneg)
        rw [h.observedStep_of_next hrunning hcurrent hexecute]
        exact (if_neg hnonneg).symm
    | halt =>
      have hexecute : machine.execute .halt = (machine, .ok 0) := rfl
      rw [h.observedStep_of_ok hrunning hcurrent hexecute]
      simp [Reference.execute, toReference, moved]
    | input prompt => exact h.observedStep_read hrunning hcurrent
    | output prompt => exact h.observedStep_write hrunning hcurrent

theorem plain_step (h : Plain instructions machine) : Plain instructions machine.step.1 := by
  have hframe := machine.frame_attempt
  rcases machine.step_cases with ⟨-, hstep⟩ | ⟨after, failure, -, hattempt, hstep⟩ |
    ⟨after, displacement, -, hattempt, hstep⟩
  · rw [hstep]
    exact h
  · rw [hattempt] at hframe
    obtain ⟨index, hpc⟩ := h.index
    rw [hstep]
    refine ⟨?_, ⟨index, hframe.pc.trans hpc⟩, ?_, ?_, hframe.trace.trans h.untraced⟩
    · exact (congrArg Program.instructions hframe.program).trans h.program
    · rw [hframe.refuses]
      exact h.accepting
    · exact hframe.interrupts.trans h.uninterrupted
  · have hresult : machine.attempt.2 = .ok displacement := by rw [hattempt]
    obtain ⟨-, -, -, next, hnext, -⟩ := attempt_destination hresult
    obtain ⟨journal, hcommit⟩ := after.exists_journal_commit displacement
    rw [hattempt] at hframe
    rw [hstep, hcommit]
    refine ⟨?_, ⟨next, ?_⟩, ?_, ?_, hframe.trace.trans h.untraced⟩
    · exact (congrArg Program.instructions hframe.program).trans h.program
    · rw [moved, hframe.pc, hnext]
    · intro writes
      rw [moved, hframe.refuses]
      exact h.accepting writes
    · exact hframe.interrupts.trans h.uninterrupted

/-- The flag that a machine has in addition says that the interpreter has stopped. -/
theorem Plain.step_halted_iff (h : Plain instructions machine) (hrunning : machine.halted = false) :
    machine.step.1.halted = true ↔ Outcome.ofStep machine.step.2 = .stopped := by
  have hframe := machine.frame_attempt
  rcases machine.step_cases with ⟨hhalted, -⟩ | ⟨after, failure, -, hattempt, hstep⟩ |
    ⟨after, displacement, -, hattempt, hstep⟩
  · rw [hrunning] at hhalted
    contradiction
  · rw [hattempt] at hframe
    rw [hstep, hframe.halted, hrunning]
    simp [Outcome.ofStep]
  · rw [hattempt] at hframe
    rw [hstep, commit_of_untraced (hframe.trace.trans h.untraced)]
    cases (after.advance displacement).halted <;> simp [Outcome.ofStep]

theorem Plain.runFrom_eq (h : Plain instructions machine) (hrunning : machine.halted = false)
    (start n : Nat) :
    ((runFrom .unlimited start n machine).1.toReference,
        Outcome.ofRun (runFrom .unlimited start n machine).2) =
      Reference.run instructions n machine.toReference ∧
    ((runFrom .unlimited start n machine).1.halted = true ↔
      Outcome.ofRun (runFrom .unlimited start n machine).2 = .stopped) := by
  induction n generalizing machine with
  | zero => simp [runFrom, Reference.run, Outcome.ofRun, hrunning]
  | succ n ih =>
    have hobserved := h.observedStep_eq hrunning
    have hhalted := h.step_halted_iff hrunning
    have hplain := plain_step h
    unfold runFrom Reference.run
    rw [← hobserved]
    unfold observedStep runStep
    rcases hstep : machine.step with ⟨after, failure | progress⟩
    · rw [hstep] at hhalted
      exact ⟨rfl, hhalted⟩
    · rw [hstep] at hhalted hplain
      cases progress with
      | false => exact ⟨rfl, hhalted⟩
      | true =>
        have hafter : after.halted = false := by
          rw [← Bool.not_eq_true, hhalted]
          simp [Outcome.ofStep]
        exact ih hplain hafter

/-- A machine on an accepted instruction list and the reference interpreter on the list itself do
the same: after as many steps they hold the same values in the same place, have written the same
text and have the same tokens left. They stop together, which the machine knows by its flag, and
fail together, for the same reason. -/
theorem run_agrees_with_reference (instructions : List Instruction) (program : Program)
    (haccepted : Program.ofList instructions = .ok program) (registers : Registers)
    (tokens : List String) (n : Nat) :
    let ran := (start program registers (.ofTokens tokens)).run n .unlimited
    let expected := Reference.run instructions n
      { acc := registers.acc, r := registers.r, tokens := tokens }
    ran.1.registers =
        { r := expected.1.r, acc := expected.1.acc, pc := .int expected.1.index } ∧
      ran.1.output.written = expected.1.written ∧
      ran.1.input.remaining = expected.1.tokens ∧
      Outcome.ofRun ran.2 = expected.2 ∧
      (ran.1.halted = true ↔ expected.2 = .stopped) := by
  intro ran expected
  have hplain : Plain instructions (start program registers (.ofTokens tokens)) :=
    ⟨Program.instructions_of_ofList haccepted, ⟨0, rfl⟩, fun _ ↦ rfl, rfl, rfl⟩
  have hstart : (start program registers (.ofTokens tokens)).toReference =
      { acc := registers.acc, r := registers.r, tokens := tokens } := by
    simp [toReference, start, TokenReader.remaining, TokenReader.ofTokens]
  obtain ⟨hrun, hhalted⟩ := hplain.runFrom_eq rfl 0 n
  have hran : Plain instructions ran.1 :=
    runFrom_preserves (fun _ ↦ plain_step) .unlimited 0 n _ hplain
  rw [hstart] at hrun
  obtain ⟨hstate, houtcome⟩ : ran.1.toReference = expected.1 ∧ Outcome.ofRun ran.2 = expected.2 :=
    Prod.ext_iff.mp hrun
  rw [← hstate, ← houtcome, ← hran.pc_eq]
  exact ⟨rfl, rfl, rfl, rfl, hhalted⟩

/-- A jump that is taken, seen from both sides. -/
theorem run_agrees_on_taken_jump :
    ∃ program, Program.ofList
        [.input "n? ", .jumpIfZero "end", .sub (.int 3), .label "end", .halt] = .ok program ∧
      ∃ machine count, (start program { r := [] } (.ofTokens ["0", "x"])).run 9 .unlimited =
          (machine, some (.ok count)) ∧
        machine.registers = { r := [], acc := .int 0, pc := .int 4 } ∧
        machine.output.written = "n? " ∧ machine.input.remaining = ["x"] := by
  obtain ⟨program, hprogram⟩ : ∃ program, Program.ofList
      [.input "n? ", .jumpIfZero "end", .sub (.int 3), .label "end", .halt] = .ok program :=
    ⟨_, rfl⟩
  have hagrees := run_agrees_with_reference _ program hprogram { r := [] } ["0", "x"] 9
  refine ⟨program, hprogram, ?_⟩
  rcases hran : (start program { r := [] } (.ofTokens ["0", "x"])).run 9 .unlimited with
    ⟨machine, result⟩
  rw [hran] at hagrees
  obtain ⟨hregisters, hwritten, hremaining, houtcome, -⟩ := hagrees
  have hstopped : Outcome.ofRun result = .stopped := houtcome
  cases result with
  | none => contradiction
  | some result =>
    cases result with
    | error failure => contradiction
    | ok count => exact ⟨machine, count, rfl, hregisters, hwritten, hremaining⟩

end Machine

end Accumulator
