import Accumulator.Proofs.Step

/-!
Why a step fails. Outside the program it fails for that reason; inside, the instruction at the
program counter fails for one of few causes (`InstructionFailure`), of which an unknown label is
none, or the trace fails. `step_failure` puts this together.
-/

set_option autoImplicit false
set_option relaxedAutoImplicit false

namespace Accumulator

namespace Failure

/-- A fault shows itself unless its message has a number without a text. -/
theorem ofFault_eq_fault_iff (raised shown : Fault) :
    ofFault raised = .fault shown ↔ raised = shown ∧ ∃ message, raised.message = .ok message := by
  unfold ofFault
  cases raised.message with
  | ok message => simp
  | error cause => simp

/-- The message about a program counter behind the program needs a text for the program's size. -/
theorem ofFault_pcOutOfRange_eq_fault_iff (size : Nat) (shown : Fault) :
    ofFault (.pcOutOfRange (.int size) size) = .fault shown ↔
      .pcOutOfRange (.int size) size = shown ∧ size < Numeral.bound := by
  rw [ofFault_eq_fault_iff]
  refine and_congr_right fun _ ↦ ?_
  by_cases hsize : size < Numeral.bound
  · have htext : Numeral.text size = .ok (toString (size : Int)) :=
      (Numeral.text_eq_ok_iff _ _).mpr ⟨hsize, rfl⟩
    simp only [hsize, iff_true, Fault.message, Value.text, htext]
    exact ⟨_, rfl⟩
  · have htext : Numeral.text size = .error .writing :=
      (Numeral.text_eq_error_iff _ _).mpr ⟨Nat.le_of_not_lt hsize, rfl⟩
    simp only [hsize, iff_false, Fault.message, Value.text, htext]
    rintro ⟨message, hmessage⟩
    cases hmessage

theorem ofFault_ne_interrupt (fault : Fault) : ofFault fault ≠ .interrupt := by
  unfold ofFault
  split <;> simp

theorem error_ofFault_ne_interrupt {α : Type} (fault : Fault) :
    (.error (ofFault fault) : Except Failure α) ≠ .error .interrupt :=
  fun heq ↦ ofFault_ne_interrupt fault (Except.error.inj heq)

end Failure

namespace Machine

variable {machine : Machine} {instruction : Instruction} {failure : Failure}

/-- The causes for which an instruction of a program may fail. -/
inductive InstructionFailure : Failure → Prop
  | index (index : Value) (size : Int) :
      InstructionFailure (.ofFault (.registerIndexOutOfRange index size))
  | token (token : Option String) : InstructionFailure (.ofFault (.inputParseError token))
  | overlong (cause : Numeral.Overlong) : InstructionFailure (.overlong cause)
  | brokenOutput : InstructionFailure .brokenOutput
  | interrupt : InstructionFailure .interrupt

theorem accumulate_failure {index : Value} {combine : Value → Value → Value}
    (h : (machine.accumulate index combine).2 = .error failure) : InstructionFailure failure := by
  unfold accumulate at h
  cases hindex : index.index? machine.registers.size with
  | none =>
    rw [Registers.load_of_outOfRange hindex] at h
    cases h
    exact .index _ _
  | some i =>
    rw [Registers.load_of_inRange hindex] at h
    contradiction

theorem storeAcc_failure {index : Value}
    (h : (machine.storeAcc index).2 = .error failure) : InstructionFailure failure := by
  unfold storeAcc at h
  cases hindex : index.index? machine.registers.size with
  | none =>
    rw [Registers.store_of_outOfRange hindex] at h
    cases h
    exact .index _ _
  | some i =>
    rw [Registers.store_of_inRange hindex] at h
    contradiction

theorem integer_failure {token : String} (h : TokenReader.integer token = .error failure) :
    InstructionFailure failure := by
  unfold TokenReader.integer at h
  split at h
  · cases h
    exact .token _
  · split at h
    · contradiction
    · cases h
      exact .overlong _

theorem nextInteger_failure {reader : TokenReader} (h : reader.nextInteger.1 = .error failure) :
    InstructionFailure failure := by
  unfold TokenReader.nextInteger at h
  split at h
  · exact integer_failure h
  · split at h
    · cases h
      exact .interrupt
    · cases h
      exact .token _

theorem readAcc_failure {prompt : String}
    (h : (machine.readAcc prompt).2 = .error failure) : InstructionFailure failure := by
  unfold readAcc at h
  split at h
  · cases h
    exact .brokenOutput
  · split at h
    · contradiction
    · rename_i cause input hnext
      cases h
      have hfailed : machine.input.nextInteger.1 = .error failure := by rw [hnext]
      exact nextInteger_failure hfailed

theorem writeAcc_failure {prompt : String}
    (h : (machine.writeAcc prompt).2 = .error failure) : InstructionFailure failure := by
  unfold writeAcc at h
  split at h
  · cases h
    exact .overlong _
  · split at h
    · cases h
      exact .brokenOutput
    · contradiction

/-- A jump at the program counter never fails, taken or not. -/
theorem exists_displacement_of_target {target : String}
    (hcurrent : machine.current? = some instruction)
    (htarget : instruction.target? = some target) :
    ∃ displacement, machine.execute instruction = (machine, .ok displacement) ∧
      displacement ≠ 0 := by
  obtain ⟨address, -, hjump, -, hne⟩ := exists_jump_of_current hcurrent htarget
  have hmoves : (address : Int) - machine.registers.pc.toInt ≠ 0 := by omega
  cases instruction with
  | jump name =>
    cases htarget
    exact ⟨_, congrArg (Prod.mk machine) hjump, hmoves⟩
  | jumpIfZero name =>
    cases htarget
    simp only [execute, hjump]
    split
    · exact ⟨_, rfl, hmoves⟩
    · exact ⟨1, rfl, by decide⟩
  | jumpIfNonNegative name =>
    cases htarget
    simp only [execute, hjump]
    split
    · exact ⟨_, rfl, hmoves⟩
    · exact ⟨1, rfl, by decide⟩
  | _ => contradiction

theorem execute_failure (hcurrent : machine.current? = some instruction)
    (h : (machine.execute instruction).2 = .error failure) : InstructionFailure failure := by
  have hjump {target : String} (htarget : instruction.target? = some target) :
      InstructionFailure failure := by
    obtain ⟨displacement, hexecuted, -⟩ := exists_displacement_of_target hcurrent htarget
    rw [hexecuted] at h
    contradiction
  cases instruction with
  | label name => contradiction
  | add index => exact accumulate_failure h
  | sub index => exact accumulate_failure h
  | store index => exact storeAcc_failure h
  | load index => exact accumulate_failure h
  | jump target => exact hjump rfl
  | jumpIfZero target => exact hjump rfl
  | jumpIfNonNegative target => exact hjump rfl
  | halt => contradiction
  | input prompt => exact readAcc_failure h
  | output prompt => exact writeAcc_failure h

/-- No instruction fails with a fault of the label table or of the program counter. -/
theorem InstructionFailure.fault {fault : Fault} (h : InstructionFailure (.fault fault)) :
    (∃ index size, fault = .registerIndexOutOfRange index size) ∨
      ∃ token, fault = .inputParseError token := by
  generalize hfailure : Failure.fault fault = failure at h
  cases h with
  | index index size =>
    have heq := (Failure.ofFault_eq_fault_iff _ fault).mp hfailure.symm
    exact Or.inl ⟨index, size, heq.1.symm⟩
  | token token =>
    have heq := (Failure.ofFault_eq_fault_iff _ fault).mp hfailure.symm
    exact Or.inr ⟨token, heq.1.symm⟩
  | overlong cause => contradiction
  | brokenOutput => contradiction
  | interrupt => contradiction

/-- A snapshot fails for want of a text, or because its receiver does. -/
theorem deliver_failure (h : machine.deliver.2 = .error failure) :
    failure = .brokenTrace ∨ ∃ cause, failure = .overlong cause := by
  unfold deliver at h
  split at h
  · contradiction
  · split at h
    · cases h
      exact Or.inr ⟨_, rfl⟩
    · split at h
      · contradiction
      · contradiction
      · cases h
        exact Or.inl rfl

theorem commit_failure {displacement : Int}
    (h : (machine.commit displacement).2 = .error failure) :
    failure = .brokenTrace ∨ ∃ cause, failure = .overlong cause := by
  unfold commit at h
  split at h
  · rename_i traced cause hdelivered
    cases h
    exact deliver_failure (congrArg Prod.snd hdelivered)
  · contradiction

/-- The failures of a step: the program counter is outside the program, the instruction fails, or
the trace does. -/
theorem step_failure (h : machine.step.2 = .error failure) :
    (machine.halted = false ∧ machine.current? = none ∧
        failure = .ofFault (.pcOutOfRange machine.registers.pc machine.program.size)) ∨
      InstructionFailure failure ∨ failure = .brokenTrace := by
  rcases machine.step_cases with ⟨-, hstep⟩ | ⟨after, cause, hrunning, hattempt, hstep⟩ |
    ⟨after, displacement, -, -, hstep⟩
  · rw [hstep] at h
    contradiction
  · rw [hstep] at h
    obtain rfl : cause = failure := Except.error.inj h
    cases hcurrent : machine.current? with
    | none =>
      rw [attempt_of_no_current hcurrent] at hattempt
      cases hattempt
      exact Or.inl ⟨hrunning, rfl, rfl⟩
    | some instruction =>
      rw [attempt_of_current hcurrent] at hattempt
      exact Or.inr (Or.inl (execute_failure hcurrent (congrArg Prod.snd hattempt)))
  · rw [hstep] at h
    rcases commit_failure h with rfl | ⟨cause, rfl⟩
    · exact Or.inr (Or.inr rfl)
    · exact Or.inr (Or.inl (.overlong cause))

/-! ### Interrupts -/

theorem nextInteger_ne_interrupt {reader : TokenReader}
    (huninterrupted : reader.interrupts = false) : reader.nextInteger.1 ≠ .error .interrupt := by
  rw [TokenReader.nextInteger_fst huninterrupted]
  cases reader.remaining with
  | nil => exact Failure.error_ofFault_ne_interrupt _
  | cons token rest =>
    simp only [TokenReader.integer]
    split
    · exact Failure.error_ofFault_ne_interrupt _
    · split <;> simp

/-- Only a reader that interrupts makes an instruction fail so. -/
theorem attempt_ne_interrupt (huninterrupted : machine.input.interrupts = false) :
    machine.attempt.2 ≠ .error .interrupt := by
  have haccumulate (index : Value) (combine : Value → Value → Value) :
      (machine.accumulate index combine).2 ≠ .error .interrupt := by
    unfold accumulate
    split
    · simp
    · exact Failure.error_ofFault_ne_interrupt _
  cases hcurrent : machine.current? with
  | none =>
    rw [attempt_of_no_current hcurrent]
    exact Failure.error_ofFault_ne_interrupt _
  | some instruction =>
    have hjump {target : String} (htarget : instruction.target? = some target) :
        (machine.execute instruction).2 ≠ .error .interrupt := by
      obtain ⟨displacement, hexecuted, -⟩ := exists_displacement_of_target hcurrent htarget
      rw [hexecuted]
      simp
    rw [attempt_of_current hcurrent]
    cases instruction with
    | label name => simp [execute]
    | add index => exact haccumulate index _
    | sub index => exact haccumulate index _
    | store index =>
      simp only [execute, storeAcc]
      split
      · simp
      · exact Failure.error_ofFault_ne_interrupt _
    | load index => exact haccumulate index _
    | jump target => exact hjump rfl
    | jumpIfZero target => exact hjump rfl
    | jumpIfNonNegative target => exact hjump rfl
    | halt => simp [execute]
    | input prompt =>
      simp only [execute, readAcc]
      split
      · simp
      · split
        · simp
        · rename_i failure input hnext
          have hresult := nextInteger_ne_interrupt huninterrupted
          rw [hnext] at hresult
          exact fun heq ↦ hresult (congrArg Except.error (Except.error.inj heq))
    | output prompt =>
      simp only [execute, writeAcc]
      split
      · simp
      · split <;> simp

theorem step_ne_interrupt (huninterrupted : machine.input.interrupts = false) :
    machine.step.2 ≠ .error .interrupt := by
  rcases machine.step_cases with ⟨-, hstep⟩ | ⟨after, failure, -, hattempt, hstep⟩ |
    ⟨after, displacement, -, -, hstep⟩
  · rw [hstep]
    simp
  · have hresult := attempt_ne_interrupt huninterrupted
    rw [hattempt] at hresult
    rw [hstep]
    intro hinterrupt
    exact hresult (congrArg Except.error (Except.error.inj hinterrupt))
  · rw [hstep]
    intro hinterrupt
    rcases commit_failure hinterrupt with hbroken | ⟨cause, hlong⟩ <;> contradiction

end Machine

end Accumulator
