import Accumulator.Proofs.StraightLine
import Mathlib.Algebra.BigOperators.Group.List.Basic
import Mathlib.Algebra.Ring.Int.Defs

/-!
Rows of additions and subtractions. A step that finds its register is counted, and adds or subtracts
what stands there (`step_of_sum`); so a whole row adds its balance to the accumulator and leaves
everything else (`leadsTo_summed`). The balance of a row does not depend on its order, and that of
its mirror image is the opposite.
-/

set_option autoImplicit false
set_option relaxedAutoImplicit false

namespace Accumulator

namespace Instruction

/-- The index of the register that is added to the accumulator. -/
def added? : Instruction → Option Value
  | .add index => some index
  | _ => none

/-- The index of the register that is subtracted from the accumulator. -/
def subtracted? : Instruction → Option Value
  | .sub index => some index
  | _ => none

/-- An addition or a subtraction. -/
def isSum (i : Instruction) : Bool := i.added?.isSome || i.subtracted?.isSome

/-- Additions and subtractions exchanged. -/
def opposite : Instruction → Instruction
  | .add index => .sub index
  | .sub index => .add index
  | i => i

/-- A row backwards, additions and subtractions exchanged. -/
def mirrored (block : List Instruction) : List Instruction := (block.map opposite).reverse

theorem added?_opposite (i : Instruction) : i.opposite.added? = i.subtracted? := by
  cases i <;> rfl

theorem subtracted?_opposite (i : Instruction) : i.opposite.subtracted? = i.added? := by
  cases i <;> rfl

theorem index?_opposite (i : Instruction) : i.opposite.index? = i.index? := by
  cases i <;> rfl

end Instruction

open Instruction (mirrored)

namespace Registers

variable {registers : Registers} {block other : List Instruction}

/-- What the register of that index counts as. -/
def number (registers : Registers) (index : Value) : Int :=
  (registers.r.getD index.toInt.toNat default).toInt

/-- What a row adds to the accumulator: the registers of its additions, less those of its
subtractions. -/
def balance (registers : Registers) (block : List Instruction) : Int :=
  ((block.filterMap Instruction.added?).map registers.number).sum -
    ((block.filterMap Instruction.subtracted?).map registers.number).sum

/-- There is a register for the operand of the instruction. -/
def Serves (registers : Registers) (i : Instruction) : Prop :=
  ∀ index ∈ i.index?, 0 ≤ index.toInt ∧ index.toInt < registers.size

theorem balance_add (registers : Registers) (index : Value) :
    registers.balance [.add index] = registers.number index := by
  simp [balance, List.filterMap, Instruction.added?, Instruction.subtracted?]

theorem balance_sub (registers : Registers) (index : Value) :
    registers.balance [.sub index] = -registers.number index := by
  simp [balance, List.filterMap, Instruction.added?, Instruction.subtracted?]

theorem balance_append (registers : Registers) (block other : List Instruction) :
    registers.balance (block ++ other) = registers.balance block + registers.balance other := by
  simp only [balance, List.filterMap_append, List.map_append, List.sum_append]
  omega

theorem balance_congr {registers other : Registers} (h : registers.r = other.r)
    (block : List Instruction) : registers.balance block = other.balance block := by
  have hnumber : registers.number = other.number := by
    funext index
    rw [number, number, h]
  rw [balance, balance, hnumber]

theorem balance_of_perm (h : block.Perm other) :
    registers.balance block = registers.balance other := by
  unfold balance
  rw [((h.filterMap _).map _).sum_eq, ((h.filterMap Instruction.subtracted?).map _).sum_eq]

theorem balance_mirrored (registers : Registers) (block : List Instruction) :
    registers.balance (mirrored block) = -registers.balance block := by
  have hadded : (block.map Instruction.opposite).filterMap Instruction.added? =
      block.filterMap Instruction.subtracted? := by
    rw [List.filterMap_map]
    exact congrArg (block.filterMap ·) (funext Instruction.added?_opposite)
  have hsubtracted : (block.map Instruction.opposite).filterMap Instruction.subtracted? =
      block.filterMap Instruction.added? := by
    rw [List.filterMap_map]
    exact congrArg (block.filterMap ·) (funext Instruction.subtracted?_opposite)
  rw [mirrored, balance_of_perm (List.reverse_perm _)]
  unfold balance
  rw [hadded, hsubtracted, Int.neg_sub]

theorem serves_mirrored (h : ∀ i ∈ block, registers.Serves i) :
    ∀ i ∈ mirrored block, registers.Serves i := by
  intro i hi
  rw [mirrored, List.mem_reverse] at hi
  obtain ⟨j, hj, rfl⟩ := List.mem_map.mp hi
  rw [Serves, Instruction.index?_opposite]
  exact h j hj

/-- Either there are registers for a whole row, or one of its instructions is the first without. -/
theorem serves_or_first (registers : Registers) (block : List Instruction) :
    (∀ i ∈ block, registers.Serves i) ∨
      ∃ first bad last, block = first ++ bad :: last ∧ (∀ i ∈ first, registers.Serves i) ∧
        ¬ registers.Serves bad := by
  induction block with
  | nil => exact .inl (List.forall_mem_nil _)
  | cons i block ih =>
    by_cases hi : registers.Serves i
    · rcases ih with hall | ⟨first, bad, last, rfl, hfirst, hbad⟩
      · exact .inl (List.forall_mem_cons.mpr ⟨hi, hall⟩)
      · exact .inr ⟨i :: first, bad, last, rfl, List.forall_mem_cons.mpr ⟨hi, hfirst⟩, hbad⟩
    · exact .inr ⟨[], i, block, rfl, List.forall_mem_nil _, hi⟩

end Registers

namespace Machine

variable {machine : Machine} {block first last : List Instruction} {instruction : Instruction}

/-- The machine behind a row of additions and subtractions. -/
def summed (machine : Machine) (block : List Instruction) : Machine :=
  if block = [] then machine
  else
    { machine with
      registers :=
        { machine.registers with
          acc := .int (machine.registers.acc.toInt + machine.registers.balance block)
          pc := .int (machine.registers.pc.toInt + block.length) }
      steps := machine.steps + block.length }

/-- An untraced machine that is running stands before a row of additions and subtractions. -/
structure AboutToSum (machine : Machine) (block : List Instruction) : Prop where
  running : machine.halted = false
  untraced : machine.trace = none
  sums : ∀ i ∈ block, i.isSum = true
  stands : ∃ pc : Nat, machine.registers.pc.toInt = pc ∧
    block <+: machine.program.instructions.toList.drop pc

theorem summed_eq (machine : Machine) (block : List Instruction) :
    (machine.summed block).registers.acc.toInt =
        machine.registers.acc.toInt + machine.registers.balance block ∧
      (machine.summed block).registers.pc.toInt = machine.registers.pc.toInt + block.length ∧
      (machine.summed block).steps = machine.steps + block.length ∧
      (machine.summed block).registers.r = machine.registers.r := by
  unfold summed
  split
  · rename_i hnil
    subst hnil
    simp [Registers.balance]
  · exact ⟨rfl, rfl, rfl, rfl⟩

theorem balance_summed (machine : Machine) (block other : List Instruction) :
    (machine.summed block).registers.balance other = machine.registers.balance other :=
  Registers.balance_congr (machine.summed_eq block).2.2.2 other

theorem summed_append (machine : Machine) (first last : List Instruction) :
    (machine.summed first).summed last = machine.summed (first ++ last) := by
  by_cases hfirst : first = []
  · subst hfirst
    rfl
  by_cases hlast : last = []
  · subst hlast
    rw [List.append_nil, summed, if_pos rfl]
  obtain ⟨hacc, hpc, hsteps, -⟩ := machine.summed_eq first
  rw [summed, if_neg hlast, hacc, hpc, hsteps, balance_summed, summed, if_neg hfirst, summed,
    if_neg (by simp [hfirst]), Registers.balance_append, List.length_append]
  simp only [Int.add_assoc, Nat.add_assoc, Int.natCast_add]

/-! ### Steps -/

/-- A step that finds the register of its addition or subtraction. -/
theorem step_of_sum (hrunning : machine.halted = false) (huntraced : machine.trace = none)
    (hcurrent : machine.current? = some instruction) (hsum : instruction.isSum = true)
    (hserves : machine.registers.Serves instruction) :
    machine.step = (machine.summed [instruction], .ok true) := by
  have hload (index : Value) (hindex : instruction.index? = some index) :
      ∃ value, machine.registers.load index = .ok value ∧
        value.toInt = machine.registers.number index := by
    obtain ⟨hnonneg, hlt⟩ := hserves index hindex
    have hfound : index.index? machine.registers.size = some index.toInt.toNat :=
      (Value.index?_eq_some_iff _ _ _).mpr ⟨by omega, by omega⟩
    exact ⟨_, Registers.load_of_inRange hfound, rfl⟩
  have hstep {after : Machine} (hexecute : machine.execute instruction = (after, .ok 1)) :=
    step_of_displacement hrunning huntraced ((attempt_of_current hcurrent).trans hexecute)
      Int.one_ne_zero
  cases instruction with
  | add index =>
    obtain ⟨value, hvalue, hnumber⟩ := hload index rfl
    rw [@hstep (machine.setAcc (.int (machine.registers.acc.toInt + value.toInt)))
      (by rw [execute, accumulate, hvalue])]
    simp [summed, Registers.balance_add, hnumber, setAcc]
  | sub index =>
    obtain ⟨value, hvalue, hnumber⟩ := hload index rfl
    rw [@hstep (machine.setAcc (.int (machine.registers.acc.toInt - value.toInt)))
      (by rw [execute, accumulate, hvalue])]
    simp [summed, Registers.balance_sub, hnumber, setAcc, Int.sub_eq_add_neg]
  | _ => contradiction

/-- A step that finds no register for its addition or subtraction changes nothing. -/
theorem step_of_unserved (hrunning : machine.halted = false)
    (hcurrent : machine.current? = some instruction) (hsum : instruction.isSum = true)
    (hunserved : ¬ machine.registers.Serves instruction) :
    ∃ index, instruction.index? = some index ∧
      (index.toInt < 0 ∨ machine.registers.size ≤ index.toInt) ∧
      machine.step =
        (machine, .error (.ofFault (.registerIndexOutOfRange index machine.registers.size))) := by
  have hnone (index : Value) (hindex : instruction.index? = some index) :
      index.index? machine.registers.size = none := by
    rw [Value.index?_eq_none_iff]
    by_contra hin
    refine hunserved fun found hfound ↦ ?_
    obtain rfl : index = found := Option.some.inj (hindex.symm.trans hfound)
    omega
  cases instruction with
  | add index | sub index =>
    refine ⟨index, rfl, (Value.index?_eq_none_iff _ _).mp (hnone index rfl), ?_⟩
    rw [step_of_running hrunning, attempt_of_current hcurrent, execute, accumulate,
      Registers.load_of_outOfRange (hnone index rfl)]
  | _ => contradiction

/-! ### Rows -/

theorem AboutToSum.current? (h : machine.AboutToSum (instruction :: block)) :
    machine.current? = some instruction := by
  obtain ⟨pc, hpc, rest, hrest⟩ := h.stands
  have hhead := congrArg (·[0]?) hrest
  exact (current?_eq_some_iff _ _).mpr ⟨pc, hpc, by simpa using hhead.symm⟩

/-- Behind the first part of a row stands the rest of it. -/
theorem AboutToSum.summed (h : machine.AboutToSum (first ++ last)) :
    (machine.summed first).AboutToSum last := by
  obtain ⟨hrunning, huntraced, hsums, pc, hpc, rest, hrest⟩ := h
  have hsame : (machine.summed first).halted = machine.halted ∧
      (machine.summed first).trace = machine.trace ∧
      (machine.summed first).program = machine.program := by
    unfold Machine.summed
    split <;> exact ⟨rfl, rfl, rfl⟩
  refine ⟨hsame.1.trans hrunning, hsame.2.1.trans huntraced,
    fun i hi ↦ hsums i (List.mem_append_right _ hi), pc + first.length, ?_, rest, ?_⟩
  · rw [(machine.summed_eq first).2.1, hpc, Int.natCast_add]
  · rw [hsame.2.2, ← List.drop_drop, ← hrest, List.append_assoc, List.drop_left]

theorem leadsTo_summed (h : machine.AboutToSum block)
    (hserves : ∀ i ∈ block, machine.registers.Serves i) :
    machine.LeadsTo block.length (machine.summed block) := by
  induction block generalizing machine with
  | nil => exact .refl machine
  | cons i block ih =>
    obtain ⟨hi, hblock⟩ := List.forall_mem_cons.mp hserves
    have hstep : machine.LeadsTo 1 (machine.summed [i]) :=
      .of_step (step_of_sum h.running h.untraced h.current? (h.sums i List.mem_cons_self) hi)
    have hfirst : machine.AboutToSum ([i] ++ block) := h
    have hbehind : (machine.summed [i]).AboutToSum block := hfirst.summed
    have hstill : ∀ j ∈ block, (machine.summed [i]).registers.Serves j := hblock
    have hway := hstep.trans (ih hbehind hstill)
    rwa [summed_append, Nat.add_comm] at hway

/-- Where a row of additions and subtractions has led: the accumulator is changed by the balance of
the row, each of the steps has moved on to the next instruction, and nothing else has changed. -/
structure SumsTo (machine : Machine) (block : List Instruction) (after : Machine) : Prop where
  way : machine.LeadsTo block.length after
  acc : after.registers.acc.toInt =
    machine.registers.acc.toInt + machine.registers.balance block
  pc : after.registers.pc.toInt = machine.registers.pc.toInt + block.length
  steps : after.steps = machine.steps + block.length
  rest :
    { after with
      registers := { after.registers with acc := machine.registers.acc, pc := machine.registers.pc }
      steps := machine.steps } = machine

theorem sumsTo_summed (h : machine.AboutToSum block)
    (hserves : ∀ i ∈ block, machine.registers.Serves i) :
    machine.SumsTo block (machine.summed block) := by
  obtain ⟨hacc, hpc, hsteps, -⟩ := machine.summed_eq block
  refine ⟨leadsTo_summed h hserves, hacc, hpc, hsteps, ?_⟩
  unfold summed
  split <;> rfl

/-- The result does not depend on the order of a row. -/
theorem summed_of_perm {permuted : List Instruction} (h : permuted.Perm block)
    (program : Program) :
    { machine with program }.summed permuted = { machine.summed block with program } := by
  have hempty : permuted = [] ↔ block = [] := by
    rw [← List.length_eq_zero_iff, h.length_eq, List.length_eq_zero_iff]
  have hbalance : { machine with program }.registers.balance permuted =
      machine.registers.balance block := Registers.balance_of_perm h
  unfold summed
  by_cases hblock : block = []
  · rw [if_pos hblock, if_pos (hempty.mpr hblock)]
  · rw [if_neg hblock, if_neg (hempty.not.mpr hblock), hbalance, h.length_eq]

end Machine

theorem Failure.ofFault_registerIndex {index : Value} {size : Nat}
    (hindex : index.toInt.natAbs < Numeral.bound) (hsize : size ≤ Numeral.bound) :
    ofFault (.registerIndexOutOfRange index size) =
      .fault (.registerIndexOutOfRange index size) := by
  have hshown : ∃ shown, index.text = .ok shown := by
    cases index with
    | int n => exact ⟨_, (Numeral.text_eq_ok_iff n _).mpr ⟨hindex, rfl⟩⟩
    | bool b => cases b <;> exact ⟨_, rfl⟩
  obtain ⟨shown, hshown⟩ := hshown
  have hpositive : 1 < Numeral.bound := Numeral.lt_bound_of_lt_pow (k := 1) (by decide) (by decide)
  have hlast : Numeral.text (size - 1) = .ok (toString ((size : Int) - 1)) :=
    (Numeral.text_eq_ok_iff _ _).mpr ⟨by omega, rfl⟩
  refine (ofFault_eq_fault_iff _ _).mpr ⟨rfl, ?_⟩
  rw [Fault.message, hshown, hlast]
  exact ⟨_, rfl⟩

namespace Machine

variable {machine : Machine} {block : List Instruction}

/-- A row of additions and subtractions, all of whose registers are there, adds its balance to the
accumulator and changes nothing else, in whatever order it stands; a row and its mirror image behind
it leave the accumulator as it was. Otherwise the first instruction without a register stops the
machine, which stands at it with the sum so far. The fault shows the index and the number of the
last register, which must not be too long for that. -/
theorem straight_line_sums (h : machine.AboutToSum block) :
    ((∀ i ∈ block, machine.registers.Serves i) →
      ∃ after, machine.SumsTo block after ∧
        ∀ (program : Program) (permuted : List Instruction), permuted.Perm block →
          { machine with program }.AboutToSum permuted →
          { machine with program }.SumsTo permuted { after with program }) ∧
    (∀ half, block = half ++ mirrored half → (∀ i ∈ half, machine.registers.Serves i) →
      ∃ after, machine.SumsTo block after ∧
        after.registers.acc.toInt = machine.registers.acc.toInt) ∧
    ((¬ ∀ i ∈ block, machine.registers.Serves i) →
      ∃ first bad last middle, ∃ index : Value, block = first ++ bad :: last ∧
        (∀ i ∈ first, machine.registers.Serves i) ∧ bad.index? = some index ∧
        (index.toInt < 0 ∨ machine.registers.size ≤ index.toInt) ∧
        machine.SumsTo first middle ∧
        let fault := Fault.registerIndexOutOfRange index machine.registers.size
        middle.step = (middle, .error (.ofFault fault)) ∧
        (∀ fuel, first.length < fuel →
          machine.run fuel .unlimited = (middle, some (.error (.ofFault fault)))) ∧
        (index.toInt.natAbs < Numeral.bound → machine.registers.size ≤ Numeral.bound →
          Failure.ofFault fault = .fault fault)) := by
  refine ⟨fun hserves ↦ ?_, ?_, fun hunserved ↦ ?_⟩
  · refine ⟨_, sumsTo_summed h hserves, fun program permuted hperm hpermuted ↦ ?_⟩
    rw [← summed_of_perm hperm]
    exact sumsTo_summed hpermuted fun i hi ↦ hserves i (hperm.mem_iff.mp hi)
  · rintro half rfl hserves
    have hboth : ∀ i ∈ half ++ mirrored half, machine.registers.Serves i :=
      List.forall_mem_append.mpr ⟨hserves, Registers.serves_mirrored hserves⟩
    have hsums := sumsTo_summed h hboth
    refine ⟨_, hsums, ?_⟩
    rw [hsums.acc, Registers.balance_append, Registers.balance_mirrored, Int.add_right_neg,
      Int.add_zero]
  · rcases machine.registers.serves_or_first block with hall | ⟨first, bad, last, rfl, hfirst, hbad⟩
    · contradiction
    have hstart : machine.AboutToSum first := by
      obtain ⟨hrunning, huntraced, hsums, pc, hpc, hstands⟩ := h
      exact ⟨hrunning, huntraced, fun i hi ↦ hsums i (List.mem_append_left _ hi), pc, hpc,
        (List.prefix_append first _).trans hstands⟩
    have hsums := sumsTo_summed hstart hfirst
    have hmiddle := h.summed
    have hr := (machine.summed_eq first).2.2.2
    have hsize : (machine.summed first).registers.size = machine.registers.size :=
      congrArg List.length hr
    have hstill : ¬ (machine.summed first).registers.Serves bad := by
      rwa [Registers.Serves, hsize]
    obtain ⟨index, hindex, hout, hstop⟩ := step_of_unserved hmiddle.running hmiddle.current?
      (hmiddle.sums bad List.mem_cons_self) hstill
    rw [hsize] at hout hstop
    exact ⟨first, bad, last, _, index, rfl, hfirst, hindex, hout, hsums, hstop,
      fun fuel hfuel ↦ hsums.way.run_of_stop h.running hstop (by simp) hfuel,
      Failure.ofFault_registerIndex⟩

/-- A truth value is subtracted and added again. Then there is no third register. -/
theorem straight_line_sums_of_truth_value :
    let program : Program := ⟨#[.add (.int 0), .sub (.int 1), .add (.int 1), .sub (.int 0),
      .add (.int 2)], [], rfl, by decide, Labels.targets_of_undefined? rfl⟩
    let other : Program := ⟨#[.sub (.int 1), .add (.int 0)], [], rfl, by decide,
      Labels.targets_of_undefined? rfl⟩
    let machine := start program { r := [.int 5, .bool true], acc := .int 3 }
    (∃ after, machine.SumsTo [.add (.int 0), .sub (.int 1)] after ∧
      after.registers.acc.toInt = 7 ∧
      { machine with program := other }.SumsTo [.sub (.int 1), .add (.int 0)]
        { after with program := other }) ∧
    (∃ after,
      machine.SumsTo [.add (.int 0), .sub (.int 1), .add (.int 1), .sub (.int 0)] after ∧
        after.registers.acc.toInt = 3) ∧
    ∃ middle index, machine.run 9 .unlimited =
      (middle, some (.error (.ofFault (.registerIndexOutOfRange index 2)))) := by
  intro program other machine
  have habout (block : List Instruction) (hsums : ∀ i ∈ block, i.isSum = true)
      (hstands : block <+: program.instructions.toList) : machine.AboutToSum block :=
    ⟨rfl, rfl, hsums, 0, rfl, hstands⟩
  have hserves (n : Nat) (hn : n < 2) (i : Instruction) (hindex : i.index? = some (.int n)) :
      machine.registers.Serves i := by
    rintro index hi
    obtain rfl : .int n = index := Option.some.inj (hindex.symm.trans hi)
    exact ⟨Int.natCast_nonneg n, Int.ofNat_lt.mpr hn⟩
  have hfirst : machine.registers.Serves (.add (.int 0)) := hserves 0 (by decide) _ rfl
  have hsecond : machine.registers.Serves (.sub (.int 1)) := hserves 1 (by decide) _ rfl
  have hhalf : ∀ i ∈ [.add (.int 0), .sub (.int 1)], machine.registers.Serves i :=
    List.forall_mem_cons.mpr ⟨hfirst, List.forall_mem_singleton.mpr hsecond⟩
  refine ⟨?_, ?_, ?_⟩
  · obtain ⟨after, hsums, hpermuted⟩ :=
      (straight_line_sums (habout _ (by decide) ⟨_, rfl⟩)).1 hhalf
    refine ⟨after, hsums, hsums.acc, hpermuted other _ (.swap _ _ _) ?_⟩
    exact ⟨rfl, rfl, by decide, 0, rfl, [], rfl⟩
  · exact (straight_line_sums (habout _ (by decide) ⟨_, rfl⟩)).2.1 _ rfl hhalf
  · have hwhole : machine.AboutToSum program.instructions.toList :=
      habout _ (by decide) (List.prefix_refl _)
    have hunserved : ¬ ∀ i ∈ program.instructions.toList, machine.registers.Serves i := fun h ↦
      absurd ((h (.add (.int 2)) (by decide)) (.int 2) rfl).2 (by decide)
    obtain ⟨first, bad, last, middle, index, hsplit, -, -, -, -, -, hrun, -⟩ :=
      (straight_line_sums hwhole).2.2 hunserved
    have hlength : 5 = first.length + (bad :: last).length :=
      (congrArg List.length hsplit).trans List.length_append
    exact ⟨middle, index, hrun 9 (by omega)⟩

end Machine

end Accumulator
