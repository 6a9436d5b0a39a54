import Accumulator.Proofs.Accounting

/-!
Truth values in the registers. A machine makes the same steps if every truth value in its registers
is replaced by the number that it counts as (`Counts.step`). The difference shows only where a truth
value is put out, in words or as a number; and a truth value in the accumulator is one that was in
the registers at the beginning and has only been loaded and stored since.
-/

set_option autoImplicit false
set_option relaxedAutoImplicit false

namespace Accumulator

/-! ### Values and registers as numbers -/

namespace Value

/-- The integer that the value counts as. -/
def number (v : Value) : Value := .int v.toInt

/-- The text of a truth value. -/
def word (b : Bool) : String := if b then "True" else "False"

/-- The text of the number that a truth value counts as. -/
def digit (b : Bool) : String := if b then "1" else "0"

theorem text_bool (b : Bool) : (Value.bool b).text = .ok (word b) := by
  cases b <;> rfl

theorem text_number_bool (b : Bool) : (Value.bool b).number.text = .ok (digit b) := by
  cases b with
  | false =>
    exact (Numeral.text_eq_ok_iff 0 "0").mpr
      ⟨Numeral.lt_bound_of_lt_pow (k := 1) (by decide) (by decide), rfl⟩
  | true =>
    exact (Numeral.text_eq_ok_iff 1 "1").mpr
      ⟨Numeral.lt_bound_of_lt_pow (k := 1) (by decide) (by decide), rfl⟩

end Value

namespace Registers

variable {registers : Registers} {index : Value}

/-- The registers with integers in place of truth values. -/
def numbers (registers : Registers) : Registers :=
  { registers with acc := registers.acc.number, r := registers.r.map Value.number }

@[simp] theorem size_numbers (registers : Registers) : registers.numbers.size = registers.size :=
  List.length_map _

theorem load_numbers (registers : Registers) (index : Value) :
    registers.numbers.load index = (registers.load index).map Value.number := by
  have hsize := registers.size_numbers
  cases hindex : index.index? registers.size with
  | none =>
    have hindex' : index.index? registers.numbers.size = none := by rw [hsize, hindex]
    rw [load_of_outOfRange hindex, load_of_outOfRange hindex', hsize]
    rfl
  | some i =>
    have hindex' : index.index? registers.numbers.size = some i := by rw [hsize, hindex]
    rw [load_of_inRange hindex, load_of_inRange hindex', numbers]
    have hlt : i < registers.r.length := ((Value.index?_eq_some_iff _ _ _).mp hindex).2
    rw [Except.map, List.getD_eq_getElem?_getD, List.getD_eq_getElem?_getD, List.getElem?_map,
      List.getElem?_eq_getElem hlt]
    rfl

theorem store_numbers (registers : Registers) (index value : Value) :
    registers.numbers.store index value.number = (registers.store index value).map numbers := by
  have hsize := registers.size_numbers
  cases hindex : index.index? registers.size with
  | none =>
    have hindex' : index.index? registers.numbers.size = none := by rw [hsize, hindex]
    rw [store_of_outOfRange hindex, store_of_outOfRange hindex', hsize]
    rfl
  | some i =>
    have hindex' : index.index? registers.numbers.size = some i := by rw [hsize, hindex]
    rw [store_of_inRange hindex, store_of_inRange hindex']
    simp only [numbers, Except.map, List.map_set]

end Registers

/-- An output that takes the same writes. What was written so far may differ. -/
structure Output.Alike (first second : Output) : Prop where
  writes : second.writes = first.writes
  refuses : second.refuses = first.refuses

/-- Outputs that are alike take a write both or refuse it both. -/
theorem Output.Alike.write {first second : Output} (h : first.Alike second) (text text' : String) :
    ∃ first' second' accepted, first.write text = (first', accepted) ∧
      second.write text' = (second', accepted) ∧ first'.Alike second' := by
  have hrefuses' : second.refuses second.writes = first.refuses first.writes := by
    rw [h.writes, h.refuses]
  have hcount : second.writes + 1 = first.writes + 1 := congrArg (· + 1) h.writes
  cases hrefuses : first.refuses first.writes with
  | true =>
    exact ⟨_, _, _, write_of_refusing hrefuses text,
      write_of_refusing (hrefuses'.trans hrefuses) text', hcount, h.refuses⟩
  | false =>
    exact ⟨_, _, _, write_of_accepting hrefuses text,
      write_of_accepting (hrefuses'.trans hrefuses) text', hcount, h.refuses⟩

/-- The exchange with a digit for the word, if it shows a truth value. -/
def Exchange.inDigits (acc : Value) : Exchange → Exchange
  | .asked prompt => .asked prompt
  | .showed prompt text =>
      match acc with
      | .int _ => .showed prompt text
      | .bool b => .showed prompt (Value.digit b)

namespace Machine

variable {machine first second : Machine} {output : Output} {n : Nat}

/-! ### Single steps -/

/-- The machine with integers in place of truth values, and with another output. -/
def counting (machine : Machine) (output : Output) : Machine :=
  { machine with registers := machine.registers.numbers, output }

theorem number_combination {combine : Value → Value → Value} (h : IsCombination combine)
    (acc value : Value) : combine acc.number value.number = (combine acc value).number := by
  rcases h with ⟨f, rfl⟩ | rfl <;> rfl

theorem accumulate_counting {combine : Value → Value → Value} (h : IsCombination combine)
    (machine : Machine) (output : Output) (index : Value) :
    (machine.counting output).accumulate index combine =
      ((machine.accumulate index combine).1.counting output,
        (machine.accumulate index combine).2) := by
  unfold accumulate
  rw [counting, Registers.load_numbers]
  cases machine.registers.load index with
  | error fault => rfl
  | ok value =>
    simp only [Except.map, setAcc, counting, Registers.numbers, number_combination h]

theorem storeAcc_counting (machine : Machine) (output : Output) (index : Value) :
    (machine.counting output).storeAcc index =
      ((machine.storeAcc index).1.counting output, (machine.storeAcc index).2) := by
  have hacc : (machine.registers.numbers).acc = machine.registers.acc.number := rfl
  unfold storeAcc
  rw [counting, hacc, Registers.store_numbers]
  cases machine.registers.store index machine.registers.acc <;> rfl

theorem readAcc_counting (machine : Machine) (halike : machine.output.Alike output)
    (prompt : String) :
    ∃ output', (machine.counting output).readAcc prompt =
        ((machine.readAcc prompt).1.counting output', (machine.readAcc prompt).2) ∧
      (machine.readAcc prompt).1.output.Alike output' := by
  obtain ⟨first, second, accepted, hfirst, hsecond, hafter⟩ := halike.write prompt prompt
  have houtput : (machine.counting output).output = output := rfl
  have hinput : (machine.counting output).input = machine.input := rfl
  unfold readAcc
  rw [houtput, hinput, hfirst, hsecond]
  cases accepted with
  | false => exact ⟨second, rfl, hafter⟩
  | true =>
    rcases machine.input.nextInteger with ⟨_ | _, input⟩
    · exact ⟨second, rfl, hafter⟩
    · exact ⟨second, rfl, hafter⟩

/-- A text of the accumulator is too long only if that of its number is. -/
theorem exists_text_number (v : Value) :
    (∃ cause, v.text = .error cause ∧ v.number.text = .error cause) ∨
      ∃ text text', v.text = .ok text ∧ v.number.text = .ok text' := by
  cases v with
  | bool b => exact Or.inr ⟨_, _, Value.text_bool b, Value.text_number_bool b⟩
  | int n =>
    have hsame : (Value.int n).number = .int n := rfl
    rw [hsame]
    cases (Value.int n).text with
    | error cause => exact Or.inl ⟨cause, rfl, rfl⟩
    | ok text => exact Or.inr ⟨text, text, rfl, rfl⟩

theorem writeAcc_counting (machine : Machine) (halike : machine.output.Alike output)
    (prompt : String) :
    ∃ output', (machine.counting output).writeAcc prompt =
        ((machine.writeAcc prompt).1.counting output', (machine.writeAcc prompt).2) ∧
      (machine.writeAcc prompt).1.output.Alike output' := by
  have hacc : (machine.counting output).registers.acc = machine.registers.acc.number := rfl
  have houtput : (machine.counting output).output = output := rfl
  unfold writeAcc
  rw [hacc, houtput]
  rcases exists_text_number machine.registers.acc with
    ⟨cause, htext, hnumber⟩ | ⟨text, number, htext, hnumber⟩
  · rw [htext, hnumber]
    exact ⟨output, rfl, halike⟩
  · obtain ⟨first, second, accepted, hfirst, hsecond, hafter⟩ :=
      halike.write s!"{prompt}{text}\n" s!"{prompt}{number}\n"
    rw [htext, hnumber]
    simp only [hfirst, hsecond]
    cases accepted with
    | false => exact ⟨second, rfl, hafter⟩
    | true => exact ⟨second, rfl, hafter⟩

/-- No instruction tells a truth value from the number that it counts as, but for what an output
instruction writes. -/
theorem execute_counting (machine : Machine) (halike : machine.output.Alike output)
    (instruction : Instruction) :
    ∃ output', (machine.counting output).execute instruction =
        ((machine.execute instruction).1.counting output', (machine.execute instruction).2) ∧
      (machine.execute instruction).1.output.Alike output' := by
  refine execute_congr (R := fun first second ↦ ∃ output',
      second = (first.1.counting output', first.2) ∧ first.1.output.Alike output')
    instruction (fun _ ↦ ⟨output, rfl, halike⟩) (fun _ ↦ rfl) rfl ?_ ?_ ?_ ?_
  · intro index combine _ hcombine
    refine ⟨output, accumulate_counting hcombine machine output index, ?_⟩
    unfold accumulate
    split <;> exact halike
  · intro index _
    refine ⟨output, machine.storeAcc_counting output index, ?_⟩
    unfold storeAcc
    split <;> exact halike
  · intro prompt _
    exact machine.readAcc_counting halike prompt
  · intro prompt
    exact machine.writeAcc_counting halike prompt

theorem output_step (hrunning : machine.halted = false) :
    machine.step.1.output = machine.attempt.1.output := by
  rcases machine.step_cases with ⟨hhalted, -⟩ | ⟨after, failure, -, hattempt, hstep⟩ |
    ⟨after, displacement, -, hattempt, hstep⟩
  · rw [hrunning] at hhalted
    contradiction
  · rw [hstep, hattempt]
  · obtain ⟨journal, hcommit⟩ := after.exists_journal_commit displacement
    rw [hstep, hattempt, hcommit]
    rfl

theorem attempt_counting (machine : Machine) (halike : machine.output.Alike output) :
    ∃ output', (machine.counting output).attempt =
        (machine.attempt.1.counting output', machine.attempt.2) ∧
      machine.attempt.1.output.Alike output' := by
  exact attempt_congr (R := fun first second ↦ ∃ output',
      second = (first.1.counting output', first.2) ∧ first.1.output.Alike output')
    rfl rfl (fun _ ↦ ⟨output, rfl, halike⟩) fun instruction _ ↦
      machine.execute_counting halike instruction

theorem neutral_counting (output : Output) : Neutral (·.counting output) where
  halted _ := rfl
  trace _ := rfl
  advance machine displacement := by
    simp only [advance, apply_ite (counting · output)]
    rfl

/-- The second machine has integers in place of truth values and may have written another text. -/
def Counts (first second : Machine) : Prop :=
  ∃ output, second = first.counting output ∧ first.output.Alike output ∧ first.trace = none

/-- A step is the same with integers in place of truth values. -/
theorem Counts.step (h : Counts first second) :
    Counts first.step.1 second.step.1 ∧ second.step.2 = first.step.2 := by
  obtain ⟨output, rfl, halike, huntraced⟩ := h
  have hstill : first.step.1.trace = none := first.trace_step.trans huntraced
  cases hrunning : first.halted with
  | true =>
    have hrunning' : (first.counting output).halted = true := hrunning
    rw [step_of_halted hrunning, step_of_halted hrunning']
    exact ⟨⟨output, rfl, halike, huntraced⟩, rfl⟩
  | false =>
    obtain ⟨output', hattempt, halike'⟩ := first.attempt_counting halike
    have hrunning' : (first.counting output).halted = false := hrunning
    have hstep := (neutral_counting output').step hrunning hrunning' huntraced hattempt
    rw [hstep]
    refine ⟨⟨output', rfl, ?_, hstill⟩, rfl⟩
    rw [output_step hrunning]
    exact halike'

theorem Counts.eq_counting (h : Counts first second) : second = first.counting second.output := by
  obtain ⟨output, rfl, -⟩ := h
  rfl

theorem Counts.steps_eq (h : Counts first second) : second.steps = first.steps := by
  obtain ⟨output, rfl, -⟩ := h
  rfl

/-! ### What is shown -/

theorem exchangeOf?_counting (machine : Machine) (halike : machine.output.Alike output)
    (instruction : Instruction) :
    (machine.counting output).exchangeOf? instruction =
      (machine.exchangeOf? instruction).map (Exchange.inDigits machine.registers.acc) := by
  have hacc : (machine.counting output).registers.acc = machine.registers.acc.number := rfl
  have houtput : (machine.counting output).output = output := rfl
  unfold exchangeOf?
  rw [houtput, halike.writes, halike.refuses, hacc]
  cases machine.output.refuses machine.output.writes with
  | true => rfl
  | false =>
    cases instruction with
    | output prompt =>
      cases machine.registers.acc with
      | int v =>
        have hsame : (Value.int v).number = .int v := rfl
        rw [hsame]
        cases (Value.int v).text <;> rfl
      | bool b =>
        rw [Value.text_bool, Value.text_number_bool]
        rfl
    | _ => rfl

theorem exchange?_counting (machine : Machine) (halike : machine.output.Alike output) :
    (machine.counting output).exchange? =
      machine.exchange?.map (Exchange.inDigits machine.registers.acc) := by
  have hcurrent : (machine.counting output).current? = machine.current? := rfl
  have hhalted : (machine.counting output).halted = machine.halted := rfl
  unfold exchange?
  rw [hcurrent, hhalted]
  cases machine.halted with
  | true => rfl
  | false =>
    cases machine.current? with
    | none => rfl
    | some instruction => exact machine.exchangeOf?_counting halike instruction

/-- Where a truth value is shown, the one machine writes a word and the other a digit. All other
exchanges are the same. -/
theorem Counts.exchange?_eq (h : Counts first second) :
    match first.exchange?, first.registers.acc with
    | some (.showed prompt value), .bool b =>
        value = Value.word b ∧ second.exchange? = some (.showed prompt (Value.digit b))
    | exchange?, _ => second.exchange? = exchange? := by
  obtain ⟨output, rfl, halike, -⟩ := h
  rw [first.exchange?_counting halike]
  rcases hexchange : first.exchange? with _ | ⟨prompt⟩ | ⟨prompt, value⟩
  · rfl
  · rfl
  · cases hacc : first.registers.acc with
    | int v => rfl
    | bool b =>
      obtain ⟨-, -, htext⟩ := current?_of_showed hexchange
      rw [hacc, Value.text_bool] at htext
      exact ⟨(Except.ok.inj htext).symm, rfl⟩

/-- A machine makes the same steps and the same runs with integers in place of the truth values in
its registers. A sum or difference is an integer, and a truth value in the accumulator is one that
was in the registers at the beginning and has been loaded and stored since. Only such a one is put
out differently: as a word where the other machine writes a digit. -/
theorem truth_values_count_as_numbers (program : Program) (registers : Registers)
    (input : TokenReader) (output : Output) :
    let machine := start program registers input output
    let counting := start program registers.numbers input output
    (∀ n, let first := machine.afterSteps n
      let second := counting.afterSteps n
      second = first.counting second.output ∧ second.step.2 = first.step.2 ∧
      (∀ index, first.carriedOut? = some (.add index) ∨ first.carriedOut? = some (.sub index) →
        ∃ v, first.step.1.registers.acc = .int v) ∧
      (∀ b, first.registers.acc = .bool b ↔ ∃ cell, machine.origin? n .acc = some cell ∧
        registers.at? cell = some (.bool b)) ∧
      first.output.written =
        output.written ++ String.join ((machine.exchanges n).map Exchange.text) ∧
      second.output.written =
        output.written ++ String.join ((counting.exchanges n).map Exchange.text) ∧
      match first.exchange?, first.registers.acc with
      | some (.showed prompt value), .bool b =>
          value = Value.word b ∧ second.exchange? = some (.showed prompt (Value.digit b))
      | exchange?, _ => second.exchange? = exchange?) ∧
    ∀ fuel budget,
      (counting.run fuel budget).1 =
        (machine.run fuel budget).1.counting (counting.run fuel budget).1.output ∧
      (counting.run fuel budget).2 = (machine.run fuel budget).2 := by
  intro machine counting
  have hstart : Counts machine counting := ⟨output, rfl, ⟨rfl, rfl⟩, rfl⟩
  constructor
  · intro n first second
    have hcounts : Counts first second :=
      afterSteps_lockstep (R := Counts) (fun _ _ h ↦ h.step.1) hstart n
    have hinteger {instruction : Instruction} (hcarried : first.carriedOut? = some instruction)
        (hsource : instruction.source? .acc = none) :
        ∃ v, first.step.1.registers.acc = .int v := by
      have hsupplies := first.step_supplies .acc
      rw [source?, hcarried] at hsupplies
      simp only [hsource] at hsupplies
      obtain ⟨v, hvalue⟩ := hsupplies
      exact ⟨v, Option.some.inj hvalue⟩
    refine ⟨hcounts.eq_counting, hcounts.step.2, ?_, fun b ↦ ?_,
      (machine.afterSteps_accounts n).written, (counting.afterSteps_accounts n).written,
      hcounts.exchange?_eq⟩
    · rintro index (hadd | hsub)
      · exact hinteger hadd rfl
      · exact hinteger hsub rfl
    · have hcopy := machine.at?_eq_bool_iff n .acc b
      simp only [machine, at?_start] at hcopy
      exact Option.some_inj.symm.trans hcopy
  · intro fuel budget
    obtain ⟨hlast, hresult⟩ := runFrom_lockstep (fun _ _ ↦ Counts.step)
      (fun _ _ ↦ Counts.steps_eq) budget machine.steps fuel hstart
    exact ⟨hlast.eq_counting, hresult⟩

/-- A truth value is loaded, put out and added to itself. -/
theorem truth_value_put_out_and_added :
    let program : Program := ⟨#[.load (.int 0), .output "", .add (.int 0)], [], rfl, by decide,
      Labels.targets_of_undefined? rfl⟩
    let machine := start program { r := [.bool true] }
    let counting := start program (Registers.numbers { r := [.bool true] })
    Registers.numbers { r := [.bool true] } = { r := [.int 1] } ∧
      (machine.afterSteps 1).exchange? = some (.showed "" "True") ∧
      (counting.afterSteps 1).exchange? = some (.showed "" "1") ∧
      (∃ cell, machine.origin? 1 .acc = some cell ∧
        Registers.at? { r := [.bool true] } cell = some (.bool true)) ∧
      (∃ v, (machine.afterSteps 2).step.1.registers.acc = .int v) ∧
      (counting.run 3 .unlimited).2 = none := by
  intro program machine counting
  obtain ⟨hsteps, hruns⟩ := truth_values_count_as_numbers program { r := [.bool true] } {} {}
  obtain ⟨-, -, -, hcopy, -, -, hshown⟩ := hsteps 1
  obtain ⟨-, -, hsum, -⟩ := hsteps 2
  have hacc : (machine.afterSteps 1).registers.acc = .bool true := rfl
  have hshowing : (machine.afterSteps 1).exchange? = some (.showed "" "True") := rfl
  have hadding : (machine.afterSteps 2).carriedOut? = some (.add (.int 0)) := by
    decide +kernel +zetaReduce
  have hunfinished : (machine.run 3 .unlimited).2 = none := rfl
  rw [hshowing, hacc] at hshown
  refine ⟨rfl, hshowing, hshown.2, (hcopy true).mp hacc, ?_,
    (hruns 3 .unlimited).2.trans hunfinished⟩
  rw [show machine = start program { r := [.bool true] } from rfl]
  exact hsum (.int 0) (Or.inl hadding)

end Machine

end Accumulator
