import Accumulator.Proofs.Lockstep

/-!
What a program does to its registers. A step writes into one numbered register at most, that of a
store instruction (`r_step`), so that their number never changes and each keeps its value until it
is stored into. Registers behind the last are out of reach of every index that is in range, and a
machine that has some more of them does the same as one without (`widened_step`).
-/

set_option autoImplicit false
set_option relaxedAutoImplicit false

namespace Accumulator

namespace Registers

variable {registers : Registers} {index : Value} {i : Nat}

/-- The registers with more of them behind the last. -/
def widened (registers : Registers) (extra : List Value) : Registers :=
  { registers with r := registers.r ++ extra }

theorem index?_widened (hindex : index.index? registers.size = some i) (extra : List Value) :
    index.index? (registers.widened extra).size = some i := by
  obtain ⟨hi, hlt⟩ := (Value.index?_eq_some_iff _ _ _).mp hindex
  refine (Value.index?_eq_some_iff _ _ _).mpr ⟨hi, ?_⟩
  rw [size, widened, List.length_append]
  exact Nat.lt_add_right _ hlt

theorem load_widened (hindex : index.index? registers.size = some i) (extra : List Value) :
    (registers.widened extra).load index = registers.load index := by
  have hlt : i < registers.r.length := ((Value.index?_eq_some_iff _ _ _).mp hindex).2
  rw [load_of_inRange hindex, load_of_inRange (index?_widened hindex extra), widened,
    List.getD_eq_getElem?_getD, List.getElem?_append_left hlt, List.getD_eq_getElem?_getD]

theorem store_widened (hindex : index.index? registers.size = some i) (value : Value)
    (extra : List Value) :
    (registers.widened extra).store index value =
      (registers.store index value).map (·.widened extra) := by
  have hlt : i < registers.r.length := ((Value.index?_eq_some_iff _ _ _).mp hindex).2
  rw [store_of_inRange hindex, store_of_inRange (index?_widened hindex extra)]
  simp only [widened, Except.map, List.set_append_left i value hlt]

end Registers

namespace Machine

variable {machine : Machine} {instruction : Instruction} {extra : List Value} {i j n : Nat}

/-! ### Stores -/

/-- The register into which the next step stores the accumulator, if it does. -/
def storesInto? (machine : Machine) : Option Nat :=
  match machine.halted, machine.current? with
  | false, some (.store index) => index.index? machine.registers.size
  | _, _ => none

theorem storesInto?_eq_some_iff (machine : Machine) (j : Nat) :
    machine.storesInto? = some j ↔ machine.halted = false ∧ ∃ index,
      machine.current? = some (.store index) ∧ index.toInt = j ∧ j < machine.registers.size := by
  unfold storesInto?
  split
  · rename_i index hhalted hcurrent
    rw [Value.index?_eq_some_iff, hhalted, hcurrent]
    simp
  · rename_i hother
    constructor
    · intro h
      contradiction
    · rintro ⟨hhalted, index, hcurrent, -⟩
      exact absurd hcurrent (hother index hhalted)

/-- Of all instructions only a store touches the numbered registers. -/
theorem r_execute (machine : Machine) (instruction : Instruction) :
    (machine.execute instruction).1.registers.r = match instruction with
      | .store index => match index.index? machine.registers.size with
        | some i => machine.registers.r.set i machine.registers.acc
        | none => machine.registers.r
      | _ => machine.registers.r := by
  have haccumulate (index : Value) (combine : Value → Value → Value) :
      (machine.accumulate index combine).1.registers.r = machine.registers.r := by
    unfold accumulate
    split <;> rfl
  cases instruction with
  | label name => rfl
  | add index => exact haccumulate index _
  | sub index => exact haccumulate index _
  | store index =>
    simp only [execute, storeAcc]
    cases hindex : index.index? machine.registers.size with
    | none => rw [Registers.store_of_outOfRange hindex]
    | some i => rw [Registers.store_of_inRange hindex]
  | load index => exact haccumulate index _
  | jump target => rfl
  | jumpIfZero target => rfl
  | jumpIfNonNegative target => rfl
  | halt => rfl
  | input prompt =>
    simp only [execute, readAcc]
    split
    · rfl
    · split <;> rfl
  | output prompt =>
    simp only [execute, writeAcc]
    split
    · rfl
    · split <;> rfl

theorem r_attempt (hrunning : machine.halted = false) :
    machine.attempt.1.registers.r = match machine.storesInto? with
      | some i => machine.registers.r.set i machine.registers.acc
      | none => machine.registers.r := by
  unfold storesInto?
  rw [hrunning]
  cases hcurrent : machine.current? with
  | none => rw [attempt_of_no_current hcurrent]
  | some instruction =>
    rw [attempt_of_current hcurrent, r_execute]
    cases instruction with
    | store index => rfl
    | _ => rfl

/-- A step stores the accumulator into a register, or leaves them all as they are. -/
theorem r_step (machine : Machine) :
    machine.step.1.registers.r = match machine.storesInto? with
      | some i => machine.registers.r.set i machine.registers.acc
      | none => machine.registers.r := by
  rcases machine.step_cases with ⟨hhalted, hstep⟩ | ⟨after, failure, hrunning, hattempt, hstep⟩ |
    ⟨after, displacement, hrunning, hattempt, hstep⟩
  · rw [hstep, storesInto?, hhalted]
  · rw [hstep, ← r_attempt hrunning, hattempt]
  · rw [hstep, commit_registers, ← r_attempt hrunning, hattempt]

theorem size_step (machine : Machine) : machine.step.1.registers.size = machine.registers.size := by
  unfold Registers.size
  rw [r_step]
  split
  · rw [List.length_set]
  · rfl

theorem size_afterSteps (machine : Machine) (n : Nat) :
    (machine.afterSteps n).registers.size = machine.registers.size := by
  induction n with
  | zero => rfl
  | succ n ih => rw [afterSteps, size_step, ih]

theorem r_step_of_not_stored (h : machine.storesInto? ≠ some j) :
    machine.step.1.registers.r[j]? = machine.registers.r[j]? := by
  rw [r_step]
  split
  · rename_i i hstores
    have hne : i ≠ j := fun heq ↦ h (heq ▸ hstores)
    rw [List.getElem?_set_ne hne]
  · rfl

/-- A register keeps its value while nothing is stored into it. -/
theorem r_afterSteps_of_not_stored (h : ∀ i < n, (machine.afterSteps i).storesInto? ≠ some j) :
    (machine.afterSteps n).registers.r[j]? = machine.registers.r[j]? := by
  induction n with
  | zero => rfl
  | succ n ih =>
    rw [afterSteps, r_step_of_not_stored (h n (Nat.lt_succ_self n))]
    exact ih fun i hi ↦ h i (Nat.lt_succ_of_lt hi)

/-! ### More registers -/

/-- The machine with more registers behind the last. -/
def widened (machine : Machine) (extra : List Value) : Machine :=
  { machine with registers := machine.registers.widened extra }

/-- The next step fails because there is no register with the index of its instruction. -/
def lacksRegister (machine : Machine) : Bool :=
  !machine.halted && (machine.current?.bind Instruction.index?).any fun index ↦
    (index.index? machine.registers.size).isNone

theorem exists_register_of_not_lacks {index : Value} (hrunning : machine.halted = false)
    (hcurrent : machine.current? = some instruction) (hindex : instruction.index? = some index)
    (h : machine.lacksRegister = false) : ∃ i, index.index? machine.registers.size = some i := by
  rw [lacksRegister, hrunning, hcurrent, Option.bind_some, hindex, Option.any_some] at h
  exact Option.isSome_iff_exists.mp (by simpa using h)

theorem step_of_lacksRegister (h : machine.lacksRegister = true) :
    ∃ index, machine.step.2 =
      .error (.ofFault (.registerIndexOutOfRange index machine.registers.size)) := by
  unfold lacksRegister at h
  rw [Bool.and_eq_true, Bool.not_eq_true', Option.any_eq_true] at h
  obtain ⟨hrunning, index, hbind, hnone⟩ := h
  obtain ⟨instruction, hcurrent, hindex⟩ := Option.bind_eq_some_iff.mp hbind
  rw [Option.isNone_iff_eq_none] at hnone
  have haccumulate (combine : Value → Value → Value) :
      (machine.accumulate index combine).2 =
        .error (.ofFault (.registerIndexOutOfRange index machine.registers.size)) := by
    rw [accumulate, Registers.load_of_outOfRange hnone]
  have hexecute : (machine.execute instruction).2 =
      .error (.ofFault (.registerIndexOutOfRange index machine.registers.size)) := by
    cases instruction with
    | add index' =>
      cases hindex
      exact haccumulate _
    | sub index' =>
      cases hindex
      exact haccumulate _
    | store index' =>
      cases hindex
      rw [execute, storeAcc, Registers.store_of_outOfRange hnone]
    | load index' =>
      cases hindex
      exact haccumulate _
    | _ => contradiction
  refine ⟨index, ?_⟩
  rw [step_of_running hrunning, attempt_of_current hcurrent,
    ← Prod.eta (machine.execute instruction), hexecute]

theorem neutral_widened (extra : List Value) : Neutral (·.widened extra) where
  halted _ := rfl
  trace _ := rfl
  advance machine displacement := by
    simp only [advance, apply_ite (widened · extra)]
    rfl

/-- The added registers are out of reach of an index that is in range. -/
theorem execute_widened (machine : Machine) (extra : List Value)
    (hfound : ∀ index, instruction.index? = some index →
      ∃ i, index.index? machine.registers.size = some i) :
    (machine.widened extra).execute instruction =
      ((machine.execute instruction).1.widened extra, (machine.execute instruction).2) := by
  refine execute_congr (R := fun first second ↦ second = (first.1.widened extra, first.2))
    instruction (fun _ ↦ rfl) (fun _ ↦ rfl) rfl ?_ ?_ ?_ ?_
  · intro index combine hindex _
    obtain ⟨i, hi⟩ := hfound index hindex
    unfold accumulate
    rw [widened, Registers.load_widened hi]
    cases machine.registers.load index <;> rfl
  · intro index hindex
    obtain ⟨i, hi⟩ := hfound index hindex
    have hacc : (machine.registers.widened extra).acc = machine.registers.acc := rfl
    unfold storeAcc
    rw [widened, hacc, Registers.store_widened hi]
    cases machine.registers.store index machine.registers.acc <;> rfl
  · intro prompt _
    simp only [readAcc, widened]
    split
    · rfl
    · split <;> rfl
  · intro prompt
    have hacc : (machine.widened extra).registers.acc = machine.registers.acc := rfl
    have houtput : (machine.widened extra).output = machine.output := rfl
    simp only [writeAcc, hacc, houtput]
    cases machine.registers.acc.text with
    | error cause => rfl
    | ok acc =>
      dsimp only
      split <;> rfl

/-- A step that finds its register, or needs none, is the same with more registers. -/
theorem widened_step (huntraced : machine.trace = none) (hfound : machine.lacksRegister = false)
    (extra : List Value) :
    (machine.widened extra).step = (machine.step.1.widened extra, machine.step.2) := by
  cases hhalted : machine.halted with
  | true =>
    have hhalted' : (machine.widened extra).halted = true := hhalted
    rw [step_of_halted hhalted, step_of_halted hhalted']
  | false =>
    refine (neutral_widened extra).step hhalted hhalted huntraced ?_
    exact attempt_congr (R := fun first second ↦ second = (first.1.widened extra, first.2))
      rfl rfl (fun _ ↦ rfl) fun instruction hcurrent ↦
        machine.execute_widened extra fun index hindex ↦
          exists_register_of_not_lacks hhalted hcurrent hindex hfound

theorem widened_afterSteps (huntraced : machine.trace = none)
    (hfound : ∀ i < n, (machine.afterSteps i).lacksRegister = false) (extra : List Value) :
    (machine.widened extra).afterSteps n = (machine.afterSteps n).widened extra := by
  induction n with
  | zero => rfl
  | succ n ih =>
    have hstill : (machine.afterSteps n).trace = none :=
      afterSteps_preserves (fun before hbefore ↦ before.trace_step.trans hbefore) machine
        huntraced n
    rw [afterSteps, ih fun i hi ↦ hfound i (Nat.lt_succ_of_lt hi),
      widened_step hstill (hfound n (Nat.lt_succ_self n)), afterSteps]

theorem agree_widened (huntraced : machine.trace = none)
    (hfound : ∀ i < n, (machine.afterSteps i).lacksRegister = false) (extra : List Value) :
    Agree n machine (machine.widened extra) := by
  constructor
  · intro i hi
    rw [widened_afterSteps huntraced fun k hk ↦ hfound k (Nat.lt_of_lt_of_le hk hi)]
    rfl
  · intro i hi
    have hstill : (machine.afterSteps i).trace = none :=
      afterSteps_preserves (fun before hbefore ↦ before.trace_step.trans hbefore) machine
        huntraced i
    rw [widened_afterSteps huntraced fun k hk ↦ hfound k (Nat.lt_trans hk hi),
      widened_step hstill (hfound i hi)]

theorem widened_run {fuel : Nat} {budget : Budget} (huntraced : machine.trace = none)
    (hfound : ∀ i < machine.callsOfRun fuel budget, (machine.afterSteps i).lacksRegister = false)
    (extra : List Value) :
    (machine.widened extra).run fuel budget =
      ((machine.run fuel budget).1.widened extra, (machine.run fuel budget).2) := by
  obtain ⟨hcalls, hresult⟩ := (agree_widened huntraced hfound extra).run
  refine Prod.ext ?_ hresult
  rw [run_fst_eq, hcalls, widened_afterSteps huntraced hfound, run_fst_eq]

/-- A machine with more registers behind the last makes the same steps and the same runs, with the
same results, as long as the other finds the registers of its instructions; the registers that it
has in addition stay as they are. In every run of a machine, traced or not, the number of registers
stays the same, and so does the value of a register until it is stored into. -/
theorem registers_are_framed (program : Program) (registers : Registers) (extra : List Value)
    (input : TokenReader) (output : Output) :
    let machine := start program registers input output
    let wider := start program { registers with r := registers.r ++ extra } input output
    (∀ n, (∀ i < n, (machine.afterSteps i).lacksRegister = false) →
      wider.afterSteps n = (machine.afterSteps n).widened extra ∧
        ((machine.afterSteps n).lacksRegister = false →
          (wider.afterSteps n).step.2 = (machine.afterSteps n).step.2)) ∧
    (∀ fuel budget,
      (∀ i < machine.callsOfRun fuel budget, (machine.afterSteps i).lacksRegister = false) →
        wider.run fuel budget =
          ((machine.run fuel budget).1.widened extra, (machine.run fuel budget).2)) ∧
    (∀ n, (machine.afterSteps n).lacksRegister = true → ∃ index,
      (machine.afterSteps n).step.2 =
        .error (.ofFault (.registerIndexOutOfRange index registers.size))) ∧
    ∀ any : Machine,
      (∀ n, (any.afterSteps n).registers.size = any.registers.size ∧
        ∀ j, (∀ i < n, (any.afterSteps i).storesInto? ≠ some j) →
          (any.afterSteps n).registers.r[j]? = any.registers.r[j]?) ∧
      ∀ fuel budget, (any.run fuel budget).1 = any.afterSteps (any.callsOfRun fuel budget) := by
  intro machine wider
  have hwider : wider = machine.widened extra := rfl
  rw [hwider]
  refine ⟨?_, ?_, ?_, ?_⟩
  · intro n hfound
    refine ⟨widened_afterSteps rfl hfound extra, fun hlast ↦ ?_⟩
    refine (agree_widened (n := n + 1) rfl (fun i hi ↦ ?_) extra).results n (Nat.lt_succ_self n)
    rcases Nat.lt_succ_iff_lt_or_eq.mp hi with hbefore | rfl
    · exact hfound i hbefore
    · exact hlast
  · intro fuel budget hfound
    exact widened_run rfl hfound extra
  · intro n hlacks
    have hsize : (machine.afterSteps n).registers.size = registers.size :=
      machine.size_afterSteps n
    rw [← hsize]
    exact step_of_lacksRegister hlacks
  · intro any
    exact ⟨fun n ↦ ⟨any.size_afterSteps n, fun j hkept ↦ r_afterSteps_of_not_stored hkept⟩,
      any.run_fst_eq⟩

/-- Two registers are loaded from and stored into, with a third behind them or not. An index below
zero does not reach that one. -/
theorem registers_framed_around_third :
    let program : Program := ⟨#[.load (.int 1), .store (.int 0), .load (.int (-1))], [], rfl,
      by decide, Labels.targets_of_undefined? rfl⟩
    let machine := start program { r := [.int 5, .bool true] }
    let wider := start program { r := [.int 5, .bool true, .int 9] }
    (wider.afterSteps 2).registers.r = [.bool true, .bool true, .int 9] ∧
      (wider.afterSteps 1).step.2 = .ok true ∧
      wider.run 2 .unlimited = ((machine.run 2 .unlimited).1.widened [.int 9], none) ∧
      (∃ index,
        (machine.afterSteps 2).step.2 = .error (.ofFault (.registerIndexOutOfRange index 2))) ∧
      (machine.afterSteps 3).registers.r[1]? = some (.bool true) := by
  intro program machine wider
  have hfound : ∀ i < 2, (machine.afterSteps i).lacksRegister = false := by
    decide +kernel +zetaReduce
  have hlacking : (machine.afterSteps 2).lacksRegister = true := by decide +kernel +zetaReduce
  have hkept : ∀ i < 3, (machine.afterSteps i).storesInto? ≠ some 1 := by
    decide +kernel +zetaReduce
  obtain ⟨hsteps, hruns, hlacks, hany⟩ :=
    registers_are_framed program { r := [.int 5, .bool true] } [.int 9] {} {}
  obtain ⟨hwider, -⟩ := hsteps 2 hfound
  obtain ⟨-, hresult⟩ := hsteps 1 fun i hi ↦ hfound i (Nat.lt_succ_of_lt hi)
  have hstored : (machine.afterSteps 1).step.2 = .ok true := rfl
  refine ⟨?_, (hresult (hfound 1 Nat.one_lt_two)).trans hstored, hruns 2 .unlimited hfound,
    hlacks 2 hlacking, ?_⟩
  · rw [show wider.afterSteps 2 = (machine.afterSteps 2).widened [.int 9] from hwider]
    rfl
  · exact ((hany machine).1 3).2 1 hkept

end Machine

end Accumulator
