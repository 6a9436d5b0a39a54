import Accumulator.Proofs.Step
import Accumulator.Proofs.Tokens

/-!
Steps that fail. Whatever goes wrong before a step is committed, the machine is afterwards as it
was, its console apart, so that the step can be tried again. On the console only an input
instruction leaves a mark, and only if the output took its prompt: the prompt is then written, and
the next token is gone.
-/

set_option autoImplicit false
set_option relaxedAutoImplicit false

namespace Accumulator.Machine

variable {machine after : Machine} {instruction : Instruction} {failure : Failure}

/-- The prompt of an input instruction, if the output is going to take it. -/
def acceptedPrompt? (machine : Machine) : Instruction → Option String
  | .input prompt => if machine.output.refuses machine.output.writes then none else some prompt
  | _ => none

/-- What a failure may leave behind, given the prompt that was written before it, if any. -/
structure LeftByFailure (prompt? : Option String) (before after : Machine) : Prop where
  unchanged : after = { before with input := after.input, output := after.output }
  prompted : ∀ prompt, prompt? = some prompt →
    after.output.written = before.output.written ++ prompt ∧
      after.input.remaining = before.input.remaining.tail
  silent : prompt? = none →
    after.output.written = before.output.written ∧ after.input = before.input

theorem LeftByFailure.refl (machine : Machine) : LeftByFailure none machine machine :=
  ⟨rfl, fun _ hprompt ↦ by contradiction, fun _ ↦ ⟨rfl, rfl⟩⟩

theorem accumulate_error {index : Value} {combine : Value → Value → Value}
    (h : machine.accumulate index combine = (after, .error failure)) : after = machine := by
  unfold accumulate at h
  split at h
  · cases h
  · exact (congrArg Prod.fst h).symm

theorem storeAcc_error {index : Value} (h : machine.storeAcc index = (after, .error failure)) :
    after = machine := by
  unfold storeAcc at h
  split at h
  · cases h
  · exact (congrArg Prod.fst h).symm

theorem readAcc_error {prompt : String} (h : machine.readAcc prompt = (after, .error failure)) :
    LeftByFailure (machine.acceptedPrompt? (.input prompt)) machine after := by
  have haccepted := machine.output.write_accepted prompt
  have hwritten := machine.output.written_write prompt
  unfold readAcc at h
  rcases hwrite : machine.output.write prompt with ⟨output, accepted⟩
  rw [hwrite] at h haccepted hwritten
  cases accepted with
  | false =>
    have hnone : machine.acceptedPrompt? (.input prompt) = none := by
      simpa [acceptedPrompt?] using haccepted
    cases h
    rw [hnone]
    exact ⟨rfl, fun _ hprompt ↦ by contradiction, fun _ ↦ ⟨hwritten, rfl⟩⟩
  | true =>
    have hsome : machine.acceptedPrompt? (.input prompt) = some prompt := by
      simpa [acceptedPrompt?] using haccepted
    rcases hnext : machine.input.nextInteger with ⟨result, input⟩
    have htaken : input.remaining = machine.input.remaining.tail := by
      rw [← machine.input.next_eq.2, ← machine.input.nextInteger_snd, hnext]
    simp only [hnext] at h
    cases result with
    | ok n => cases h
    | error cause =>
      cases h
      rw [hsome]
      refine ⟨rfl, fun other hother ↦ ?_, fun hnone ↦ by contradiction⟩
      cases hother
      exact ⟨hwritten, htaken⟩

theorem writeAcc_error {prompt : String}
    (h : machine.writeAcc prompt = (after, .error failure)) :
    LeftByFailure none machine after := by
  unfold writeAcc at h
  split at h
  · cases h
    exact LeftByFailure.refl machine
  · rename_i acc _
    have hwritten := machine.output.written_write s!"{prompt}{acc}\n"
    split at h
    · rename_i output hwrite
      rw [hwrite] at hwritten
      cases h
      exact ⟨rfl, fun _ hprompt ↦ by contradiction, fun _ ↦ ⟨hwritten, rfl⟩⟩
    · cases h

theorem execute_error (h : machine.execute instruction = (after, .error failure)) :
    LeftByFailure (machine.acceptedPrompt? instruction) machine after := by
  have hrefl (hafter : after = machine) : LeftByFailure none machine after :=
    hafter ▸ LeftByFailure.refl machine
  cases instruction with
  | label name => cases h
  | add index =>
    rw [execute] at h
    exact hrefl (accumulate_error h)
  | sub index =>
    rw [execute] at h
    exact hrefl (accumulate_error h)
  | store index => exact hrefl (storeAcc_error h)
  | load index =>
    rw [execute] at h
    exact hrefl (accumulate_error h)
  | jump target => exact hrefl (congrArg Prod.fst h).symm
  | jumpIfZero target => exact hrefl (congrArg Prod.fst h).symm
  | jumpIfNonNegative target => exact hrefl (congrArg Prod.fst h).symm
  | halt => cases h
  | input prompt => exact readAcc_error h
  | output prompt => exact writeAcc_error h

/-- The prompt that a step writes, if its instruction is an input and the output takes it. -/
def promptOfStep? (machine : Machine) : Option String :=
  machine.current?.bind machine.acceptedPrompt?

theorem attempt_error (h : machine.attempt = (after, .error failure)) :
    LeftByFailure machine.promptOfStep? machine after := by
  unfold promptOfStep?
  cases hcurrent : machine.current? with
  | none =>
    rw [attempt_of_no_current hcurrent] at h
    cases h
    exact LeftByFailure.refl machine
  | some instruction =>
    rw [attempt_of_current hcurrent] at h
    exact execute_error h

/-- A step that fails before the trace is reached, which is to say that it would fail without a
trace as well, fails in the same way with it. It leaves everything but the console as it was, so
that the next step executes the same instruction again. -/
theorem failing_step_is_atomic (machine : Machine) (failure : Failure)
    (hfails : machine.untraced.step.2 = .error failure) :
    machine.step.2 = .error failure ∧
      LeftByFailure machine.promptOfStep? machine machine.step.1 ∧
      machine.step.1.halted = false ∧ machine.step.1.current? = machine.current? := by
  obtain ⟨hrunning, hattempt⟩ := attempt_of_untraced_step hfails
  have hstep := step_of_running hrunning
  rcases hresult : machine.attempt with ⟨after, result⟩
  rw [hresult] at hstep hattempt
  simp only at hattempt
  subst hattempt
  have hleft := attempt_error hresult
  rw [hstep]
  refine ⟨rfl, hleft, ?_, ?_⟩
  · rw [hleft.unchanged]
    exact hrunning
  · rw [hleft.unchanged]
    rfl

/-- A word where a number is wanted: the prompt and the word are gone, the machine is not. -/
theorem failing_step_of_word :
    let program : Program :=
      ⟨#[.input "n? "], [], rfl, by decide, Labels.targets_of_undefined? rfl⟩
    let machine :=
      { start program { r := [.int 7] } (.ofTokens ["x", "8"]) with trace := some .failing }
    machine.step.2 = .error (.fault (.inputParseError (some "x"))) ∧
      machine.step.1.output.written = "n? " ∧ machine.step.1.input.remaining = ["8"] ∧
      machine.step.1.registers = machine.registers ∧
      machine.step.1.current? = some (.input "n? ") := by
  intro program machine
  obtain ⟨hfailed, hleft, -, hagain⟩ :=
    failing_step_is_atomic machine (.fault (.inputParseError (some "x"))) rfl
  obtain ⟨hwritten, hremaining⟩ := hleft.prompted "n? " rfl
  refine ⟨hfailed, hwritten, hremaining, ?_, hagain⟩
  rw [hleft.unchanged]

end Accumulator.Machine
