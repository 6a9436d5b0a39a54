import Accumulator.Proofs.Acceptance
import Accumulator.Proofs.Halting
import Accumulator.Proofs.Relocation
import Mathlib.Data.List.Perm.Basic

/-!
One more label in a program. A label with a new name does nothing wherever it is put. Jumps do not
notice it, for they lead to the label that they name wherever that has moved to; only where control
goes on to the address does the machine stand before it and pass over it, with one step more
(`StandsBefore.step`). So a machine on the longer program comes along with the machine on its own
(`lands_afterSteps`), and every number of its steps is accounted for (`eq_add_arrivals`).
-/

set_option autoImplicit false
set_option relaxedAutoImplicit false

namespace Accumulator

/-- Where an address comes to lie when something is inserted at another. -/
def shifted (inserted address : Nat) : Nat := if address < inserted then address else address + 1

theorem shifted_injective (inserted : Nat) : Function.Injective (shifted inserted) := by
  intro first second h
  unfold shifted at h
  split at h <;> split at h <;> omega

/-! ### The longer program -/

namespace Program

/-- The other program has one more label, at an address, and is otherwise the same. -/
structure GainsLabel (address : Nat) (name : String) (program other : Program) : Prop where
  embeds : program.Embeds (shifted address) id other
  label : other.instructions[address]? = some (.label name)
  size : other.size = program.size + 1
  within : address ≤ program.size

variable {instructions : List Instruction} {address : Nat} {name : String}
  {program other : Program}

theorem gainsLabel_of_ofList (haddress : address ≤ instructions.length)
    (hprogram : ofList instructions = .ok program)
    (hother : ofList (instructions.insertIdx address (.label name)) = .ok other) :
    GainsLabel address name program other := by
  refine ⟨?_, ?_, ?_, ?_⟩
  · intro i instruction hat
    rw [instructions_of_ofList hprogram, List.getElem?_toArray] at hat
    rw [instructions_of_ofList hother, List.getElem?_toArray, Instruction.renamed_id, shifted]
    by_cases hbefore : i < address
    · rw [if_pos hbefore, List.getElem?_insertIdx, if_pos hbefore, hat]
    · rw [if_neg hbefore, List.getElem?_insertIdx, if_neg (by omega), if_neg (by omega),
        Nat.add_sub_cancel, hat]
  · rw [instructions_of_ofList hother, List.getElem?_toArray, List.getElem?_insertIdx_self,
      if_pos haddress]
  · rw [size_of_ofList hother, size_of_ofList hprogram,
      List.length_insertIdx_of_le_length haddress]
  · rw [size_of_ofList hprogram]
    exact haddress

/-- A label with a new name may be inserted anywhere. -/
theorem exists_ofList_insertIdx (haddress : address ≤ instructions.length)
    (hfresh : .label name ∉ instructions) (h : ofList instructions = .ok program) :
    ∃ other, ofList (instructions.insertIdx address (.label name)) = .ok other := by
  obtain ⟨hnodup, hdefined⟩ := exists_ofList_iff.mp ⟨program, h⟩
  have hperm := List.perm_insertIdx (Instruction.label name) instructions haddress
  refine exists_ofList_iff.mpr ⟨?_, ?_⟩
  · have hnames := hperm.filterMap Instruction.name?
    rw [List.filterMap_cons_some (show (Instruction.label name).name? = some name from rfl)]
      at hnames
    rw [hnames.nodup_iff, List.nodup_cons, Labels.mem_names_iff]
    exact ⟨hfresh, hnodup⟩
  · intro instruction hmem target htarget
    rw [hperm.mem_iff] at hmem ⊢
    rcases List.mem_cons.mp hmem with rfl | hmem
    · contradiction
    · exact List.mem_cons_of_mem _ (hdefined instruction hmem target htarget)

end Program

namespace Machine

variable {program other : Program} {machine twin : Machine} {address : Nat} {name : String}
  {extra : Nat}

/-! ### Arrivals -/

/-- The next step goes on to the address from the one before it. -/
def fallsInto (machine : Machine) (address : Nat) : Bool :=
  decide (machine.registers.pc.toInt + 1 = address) && machine.goesOn

/-- With so many steps done, control has just fallen through to the address, or begins there. -/
def arrives (machine : Machine) (address : Nat) : Nat → Bool
  | 0 => decide (machine.registers.pc.toInt = address)
  | n + 1 => (machine.afterSteps n).fallsInto address

/-- How often control arrives at the address before so many steps are done. -/
def arrivals (machine : Machine) (address n : Nat) : Nat :=
  (List.range n).countP (machine.arrives address)

theorem arrivals_succ (machine : Machine) (address n : Nat) :
    machine.arrivals address (n + 1) =
      machine.arrivals address n + (machine.arrives address n).toNat := by
  unfold arrivals
  rw [List.range_succ, List.countP_append, List.countP_singleton]
  cases machine.arrives address n <;> rfl

theorem fallsInto_iff : machine.fallsInto address = true ↔
    machine.registers.pc.toInt + 1 = address ∧ machine.goesOn = true := by
  rw [fallsInto, Bool.and_eq_true, decide_eq_true_iff]

theorem step_of_goesOn (hgoes : machine.goesOn = true) :
    machine.step.1.registers.pc.toInt = machine.registers.pc.toInt + 1 := by
  rw [goesOn, Bool.and_eq_true, decide_eq_true_iff] at hgoes
  exact hgoes.2

/-- Going on leads apart only where it leads to the insertion. -/
theorem shifted_next {pc next : Nat} (hpc : machine.registers.pc = .int pc)
    (hnext : machine.step.1.registers.pc = .int next) :
    (if machine.goesOn then shifted address pc + 1 else shifted address next) =
      if machine.fallsInto address then address else shifted address next := by
  have hfalls := @fallsInto_iff machine address
  by_cases hgoes : machine.goesOn = true
  · have hsucc := step_of_goesOn hgoes
    rw [hpc, hnext, Value.toInt_int, Value.toInt_int] at hsucc
    rw [hpc, Value.toInt_int] at hfalls
    rw [if_pos hgoes]
    -- The label lies between the two places only if the first is right before it.
    by_cases hat : pc + 1 = address
    · rw [if_pos (hfalls.mpr ⟨by omega, hgoes⟩), shifted, if_pos (by omega), hat]
    · rw [if_neg fun h ↦ hat (by have hsame := (hfalls.mp h).1; omega)]
      unfold shifted
      split_ifs <;> omega
  · rw [if_neg hgoes, if_neg fun h ↦ hgoes (hfalls.mp h).2]

/-! ### Corresponding states -/

/-- The twin is in the same state on the longer program, at the place of the same instruction, with
some more steps behind it. -/
def Matches (address : Nat) (other : Program) (extra : Nat) (machine twin : Machine) : Prop :=
  ∃ pc : Nat, ∃ journal, machine.registers.pc = .int pc ∧
    twin = machine.elsewhere other (.int (shifted address pc)) (machine.steps + extra) journal

/-- The twin is in the same state on the longer program, except that it is yet to pass over the
label. -/
def StandsBefore (address : Nat) (other : Program) (extra : Nat) (machine twin : Machine) : Prop :=
  machine.registers.pc = .int address ∧ machine.halted = false ∧ ∃ journal,
    twin = machine.elsewhere other (.int address) (machine.steps + extra) journal

/-- Where a step leads to: to the label, if control arrives there. -/
def Lands (address : Nat) (other : Program) (extra : Nat) (arriving : Bool)
    (machine twin : Machine) : Prop :=
  if arriving then StandsBefore address other extra machine twin
  else Matches address other extra machine twin

theorem lands_start (registers : Registers) (input : TokenReader) (output : Output) :
    Lands address other 0 ((start program registers input output).arrives address 0)
      (start program registers input output) (start other registers input output) := by
  have harrives : (start program registers input output).arrives address 0 =
      decide (address = 0) := by
    rw [arrives, start, Value.toInt_int, decide_eq_decide]
    omega
  unfold Lands
  rw [harrives]
  by_cases hzero : address = 0
  · rw [decide_eq_true hzero, hzero]
    exact ⟨rfl, rfl, #[], rfl⟩
  · have hstay : shifted address 0 = 0 := if_pos (Nat.pos_of_ne_zero hzero)
    rw [decide_eq_false hzero]
    refine ⟨0, #[], rfl, ?_⟩
    rw [hstay]
    rfl

/-- A step that does not begin at the end of the program. -/
theorem Matches.step (hmatch : Matches address other extra machine twin)
    (hinside : Inside program machine) (hgains : program.GainsLabel address name other)
    (hend : machine.halted = false → machine.registers.pc ≠ .int program.size) :
    twin.step.2 = machine.step.2 ∧
      Lands address other extra (machine.fallsInto address) machine.step.1 twin.step.1 := by
  obtain ⟨pc, journal, hpc, rfl⟩ := hmatch
  have hembeds : machine.program.Embeds (shifted address) id other :=
    hinside.inProgram.1 ▸ hgains.embeds
  have hcurrent (hrunning : machine.halted = false) : machine.current? ≠ none :=
    mt hinside.inProgram.current?_eq_none_iff.mp (hend hrunning)
  obtain ⟨next, hnext, reports, hstep⟩ := @step_elsewhere machine (shifted address) id other
    journal pc (shifted_injective address) hembeds hinside.untraced hpc hcurrent extra
  rw [shifted_next hpc hnext] at hstep
  rw [hstep]
  refine ⟨rfl, ?_⟩
  unfold Lands
  cases hfalls : machine.fallsInto address with
  | false => exact ⟨next, reports, hnext, rfl⟩
  | true =>
    obtain ⟨hbefore, hgoes⟩ := fallsInto_iff.mp hfalls
    have hsucc := step_of_goesOn hgoes
    have hmoves : machine.step.1.registers.pc.toInt ≠ machine.registers.pc.toInt := by omega
    have hat : next = address := by
      rw [hbefore, hnext, Value.toInt_int] at hsucc
      omega
    rw [hat] at hnext
    exact ⟨hnext, (step_of_moves hinside.untraced hmoves).2, reports, rfl⟩

/-- How a step fails behind the end of a program of so many instructions. -/
def failureBehind (size : Nat) : Failure := .ofFault (.pcOutOfRange (.int size) size)

/-- At the end of the program both machines are stuck. -/
theorem Matches.step_at_end (hmatch : Matches address other extra machine twin)
    (hinside : Inside program machine) (hgains : program.GainsLabel address name other)
    (hrunning : machine.halted = false) (hend : machine.registers.pc = .int program.size) :
    machine.step = (machine, .error (failureBehind program.size)) ∧
      twin.step = (twin, .error (failureBehind other.size)) := by
  obtain ⟨pc, journal, hpc, rfl⟩ := hmatch
  have hsize : pc = program.size := Int.ofNat.inj (Value.int.inj (hpc.symm.trans hend))
  have hplace : shifted address pc = other.size := by
    have hwithin := hgains.within
    rw [hgains.size, hsize, shifted, if_neg (by omega)]
  rw [hplace]
  exact ⟨hinside.inProgram.step_at_end hrunning hend,
    InProgram.step_at_end ⟨rfl, other.size, rfl, Nat.le_refl _⟩ hrunning rfl⟩

/-- The label is passed over in one step. -/
theorem StandsBefore.step (h : StandsBefore address other extra machine twin)
    (huntraced : machine.trace = none)
    (hlabel : other.instructions[address]? = some (.label name)) :
    twin.step.2 = .ok true ∧ Matches address other (extra + 1) machine twin.step.1 := by
  obtain ⟨hpc, hrunning, journal, htwin⟩ := h
  have hrunning' : twin.halted = false := by
    rw [htwin]
    exact hrunning
  have huntraced' : twin.trace = none := by
    rw [htwin]
    exact huntraced
  have hcurrent : twin.current? = some (.label name) := by
    rw [htwin]
    exact (current?_eq_some_iff _ _).mpr ⟨address, Value.toInt_int _, hlabel⟩
  obtain ⟨reports, hstep⟩ :=
    step_of_attempt_ok hrunning' huntraced' (attempt_of_current hcurrent)
  refine ⟨by rw [hstep]; rfl, address, reports, hpc, ?_⟩
  rw [hstep, htwin, shifted, if_neg (Nat.lt_irrefl _)]
  rfl

/-- Whether or not control arrives at the label, a step later than then at the latest the twin has
come to the same state. -/
theorem Lands.afterSteps {arriving : Bool} (h : Lands address other extra arriving machine twin)
    (huntraced : machine.trace = none)
    (hlabel : other.instructions[address]? = some (.label name)) :
    Matches address other (extra + arriving.toNat) machine (twin.afterSteps arriving.toNat) := by
  cases arriving with
  | false => exact h
  | true =>
    have hstands : StandsBefore address other extra machine twin := h
    exact (hstands.step huntraced hlabel).2

/-- A step, be it at the end of the program or not. -/
theorem Matches.lands (hmatch : Matches address other extra machine twin)
    (hinside : Inside program machine) (hgains : program.GainsLabel address name other) :
    Lands address other extra (machine.fallsInto address) machine.step.1 twin.step.1 := by
  by_cases hend : machine.halted = false ∧ machine.registers.pc = .int program.size
  · obtain ⟨hstep, hstep'⟩ := hmatch.step_at_end hinside hgains hend.1 hend.2
    have hrest : machine.fallsInto address = false := by
      rw [fallsInto, goesOn_of_rest (by rw [hstep]), Bool.and_false]
    rw [hrest, hstep, hstep']
    exact hmatch
  · exact (hmatch.step hinside hgains fun hrunning hpc ↦ hend ⟨hrunning, hpc⟩).2

/-! ### Runs -/

/-- Every number of steps is one after which the twin has come along, or is on the label. -/
theorem eq_add_arrivals (machine : Machine) (address m : Nat) :
    ∃ n, m = n + machine.arrivals address (n + 1) ∨
      machine.arrives address n = true ∧ m = n + machine.arrivals address n := by
  induction m with
  | zero =>
    have hcount := machine.arrivals_succ address 0
    cases harrives : machine.arrives address 0 with
    | true => exact ⟨0, Or.inr ⟨harrives, rfl⟩⟩
    | false => exact ⟨0, Or.inl (by rw [hcount, harrives]; rfl)⟩
  | succ m ih =>
    obtain ⟨n, rfl | ⟨harrives, rfl⟩⟩ := ih
    · have hcount := machine.arrivals_succ address (n + 1)
      cases harrives : machine.arrives address (n + 1) with
      | true => exact ⟨n + 1, Or.inr ⟨harrives, Nat.add_right_comm _ _ _⟩⟩
      | false =>
        rw [harrives] at hcount
        refine ⟨n + 1, Or.inl ?_⟩
        rw [hcount, Nat.add_right_comm]
        rfl
    · refine ⟨n, Or.inl ?_⟩
      rw [arrivals_succ, harrives, Bool.toNat_true, Nat.add_assoc]

section

variable (hinside : Inside program machine) (hgains : program.GainsLabel address name other)
  (hstart : Lands address other 0 (machine.arrives address 0) machine twin)

include hinside hgains hstart

/-- After each of its steps, the twin has come along too, but for the label if control arrives at
it. -/
theorem lands_afterSteps (n : Nat) :
    Lands address other (machine.arrivals address n) (machine.arrives address n)
      (machine.afterSteps n) (twin.afterSteps (n + machine.arrivals address n)) := by
  induction n with
  | zero => exact hstart
  | succ n ih =>
    -- The twin first passes over the label, if it stands there, and then takes the step as well.
    have hmatch := ih.afterSteps (hinside.afterSteps n).untraced hgains.label
    rw [← arrivals_succ, ← afterSteps_add, Nat.add_assoc, ← arrivals_succ] at hmatch
    have hnext := hmatch.lands (hinside.afterSteps n) hgains
    rw [Nat.add_right_comm]
    exact hnext

theorem matches_afterSteps (n : Nat) :
    Matches address other (machine.arrivals address (n + 1)) (machine.afterSteps n)
      (twin.afterSteps (n + machine.arrivals address (n + 1))) := by
  have hmatch := (lands_afterSteps hinside hgains hstart n).afterSteps
    (hinside.afterSteps n).untraced hgains.label
  rwa [← arrivals_succ, ← afterSteps_add, Nat.add_assoc, ← arrivals_succ] at hmatch

theorem standsBefore_afterSteps {n : Nat} (harrives : machine.arrives address n = true) :
    StandsBefore address other (machine.arrivals address n) (machine.afterSteps n)
      (twin.afterSteps (n + machine.arrivals address n)) := by
  have hlands := lands_afterSteps hinside hgains hstart n
  rw [harrives] at hlands
  exact hlands

theorem step_standsBefore_afterSteps {n : Nat} (harrives : machine.arrives address n = true) :
    (twin.afterSteps (n + machine.arrivals address n)).step.2 = .ok true :=
  ((standsBefore_afterSteps hinside hgains hstart harrives).step
    (hinside.afterSteps n).untraced hgains.label).1

theorem exists_halted_iff :
    (∃ m, (twin.afterSteps m).halted = true) ↔ ∃ n, (machine.afterSteps n).halted = true := by
  have hsame (n : Nat) : (twin.afterSteps (n + machine.arrivals address (n + 1))).halted =
      (machine.afterSteps n).halted := by
    obtain ⟨pc, journal, -, htwin⟩ := matches_afterSteps hinside hgains hstart n
    rw [htwin, elsewhere]
  constructor
  · rintro ⟨m, hhalted⟩
    obtain ⟨n, rfl | ⟨harrives, rfl⟩⟩ := machine.eq_add_arrivals address m
    · exact ⟨n, (hsame n).symm.trans hhalted⟩
    · -- A halted machine makes no progress.
      have hresult := step_standsBefore_afterSteps hinside hgains hstart harrives
      rw [step_of_halted hhalted] at hresult
      exact absurd (Except.ok.inj hresult) Bool.false_ne_true
  · rintro ⟨n, hhalted⟩
    exact ⟨_, (hsame n).trans hhalted⟩

theorem step_matches_of_rest {n : Nat}
    (hend : (machine.afterSteps n).halted = false →
      (machine.afterSteps n).registers.pc ≠ .int program.size) :
    (twin.afterSteps (n + machine.arrivals address (n + 1))).step.2 =
      (machine.afterSteps n).step.2 :=
  ((matches_afterSteps hinside hgains hstart n).step (hinside.afterSteps n) hgains hend).1

theorem step_matches_at_end {n : Nat} (hrunning : (machine.afterSteps n).halted = false)
    (hend : (machine.afterSteps n).registers.pc = .int program.size) :
    (machine.afterSteps n).step.2 = .error (failureBehind program.size) ∧
      (twin.afterSteps (n + machine.arrivals address (n + 1))).step.2 =
        .error (failureBehind other.size) := by
  obtain ⟨hstep, hstep'⟩ := (matches_afterSteps hinside hgains hstart n).step_at_end
    (hinside.afterSteps n) hgains hrunning hend
  rw [hstep, hstep']
  exact ⟨rfl, rfl⟩

theorem exists_failure_iff :
    (∃ m failure, (twin.afterSteps m).step.2 = .error failure) ↔
      ∃ n failure, (machine.afterSteps n).step.2 = .error failure := by
  have hsame (n : Nat) :
      (∃ failure, (twin.afterSteps (n + machine.arrivals address (n + 1))).step.2 =
        .error failure) ↔ ∃ failure, (machine.afterSteps n).step.2 = .error failure := by
    by_cases hend : (machine.afterSteps n).halted = false ∧
        (machine.afterSteps n).registers.pc = .int program.size
    · obtain ⟨hfails, hfails'⟩ := step_matches_at_end hinside hgains hstart hend.1 hend.2
      exact ⟨fun _ ↦ ⟨_, hfails⟩, fun _ ↦ ⟨_, hfails'⟩⟩
    · rw [step_matches_of_rest hinside hgains hstart fun hrunning hpc ↦ hend ⟨hrunning, hpc⟩]
  constructor
  · rintro ⟨m, failure, hfails⟩
    obtain ⟨n, rfl | ⟨harrives, rfl⟩⟩ := machine.eq_add_arrivals address m
    · exact ⟨n, (hsame n).mp ⟨failure, hfails⟩⟩
    · rw [step_standsBefore_afterSteps hinside hgains hstart harrives] at hfails
      contradiction
  · rintro ⟨n, hfails⟩
    exact ⟨_, (hsame n).mpr hfails⟩

end

/-- A label with a new name may be put anywhere into a program, and does nothing there. The machine
on the longer program goes through the same states, at the places to which the instructions have
moved, and each of its steps comes to the same. It makes one step more for each time that control
has arrived at the label, by going on to it or by beginning there, and no other steps. Both machines
halt or neither does, and both fail or neither does. Only behind the end of their programs do they
fail with different numbers. -/
theorem inserted_label_is_passed_over (instructions : List Instruction) (k : Nat) (name : String)
    (program : Program) (hk : k ≤ instructions.length) (hfresh : .label name ∉ instructions)
    (hprogram : Program.ofList instructions = .ok program) :
    ∃ labelled, Program.ofList (instructions.insertIdx k (.label name)) = .ok labelled ∧
      ∀ (registers : Registers) (input : TokenReader) (output : Output),
        let machine := start program registers input output
        let twin := start labelled registers input output
        (∀ n, let here := machine.afterSteps n
          let there := twin.afterSteps (n + machine.arrivals k (n + 1))
          Matches k labelled (machine.arrivals k (n + 1)) here there ∧
            (here.registers.pc ≠ .int instructions.length → there.step.2 = here.step.2) ∧
            (here.registers.pc = .int instructions.length →
              here.step.2 = .error (failureBehind instructions.length) ∧
                there.step.2 = .error (failureBehind (instructions.length + 1)))) ∧
        (∀ n, machine.arrives k n = true →
          let there := twin.afterSteps (n + machine.arrivals k n)
          StandsBefore k labelled (machine.arrivals k n) (machine.afterSteps n) there ∧
            there.step.2 = .ok true) ∧
        (∀ m, ∃ n, m = n + machine.arrivals k (n + 1) ∨
          machine.arrives k n = true ∧ m = n + machine.arrivals k n) ∧
        ((∃ m, (twin.afterSteps m).halted = true) ↔ ∃ n, (machine.afterSteps n).halted = true) ∧
        ((∃ m failure, (twin.afterSteps m).step.2 = .error failure) ↔
          ∃ n failure, (machine.afterSteps n).step.2 = .error failure) := by
  obtain ⟨labelled, hlabelled⟩ := Program.exists_ofList_insertIdx hk hfresh hprogram
  refine ⟨labelled, hlabelled, ?_⟩
  intro registers input output machine twin
  have hgains := Program.gainsLabel_of_ofList hk hprogram hlabelled
  have hinside := inside_start program registers input output
  have hstart : Lands k labelled 0 (machine.arrives k 0) machine twin :=
    lands_start registers input output
  have hsize := Program.size_of_ofList hprogram
  have hsize' := hgains.size
  rw [hsize] at hsize'
  refine ⟨?_, ?_, machine.eq_add_arrivals k, exists_halted_iff hinside hgains hstart,
    exists_failure_iff hinside hgains hstart⟩
  · intro n here there
    refine ⟨matches_afterSteps hinside hgains hstart n, ?_, ?_⟩
    · intro hpc
      exact step_matches_of_rest hinside hgains hstart fun _ ↦ hsize ▸ hpc
    · intro hpc
      rw [← hsize] at hpc
      have hrunning : here.halted = false := by
        refine Bool.eq_false_iff.mpr fun hhalted ↦ ?_
        have hcurrent := @current?_of_halted machine rfl n hhalted
        have hnone := (hinside.afterSteps n).inProgram.current?_eq_none_iff.mpr hpc
        rw [hcurrent] at hnone
        contradiction
      rw [← hsize', ← hsize]
      exact step_matches_at_end hinside hgains hstart hrunning hpc
  · intro n harrives there
    exact ⟨standsBefore_afterSteps hinside hgains hstart harrives,
      step_standsBefore_afterSteps hinside hgains hstart harrives⟩

/-- In front of a loop, control arrives at the label once, when it begins there. The jump back to
the loop does not come to it. -/
theorem inserted_label_in_front_of_loop :
    let instructions : List Instruction :=
      [.label "again", .sub (.int 0), .jumpIfNonNegative "again", .halt]
    let registers : Registers := { r := [.int 1], acc := .int 1 }
    ∃ program labelled, Program.ofList instructions = .ok program ∧
      Program.ofList (.label "new" :: instructions) = .ok labelled ∧
      (start program registers).arrivals 0 7 = 1 ∧
      Matches 0 labelled 1 ((start program registers).afterSteps 6)
        ((start labelled registers).afterSteps 7) ∧
      (start labelled registers).step.2 = .ok true := by
  intro instructions registers
  let program : Program :=
    ⟨instructions.toArray, [("again", 0)], rfl, by decide, Labels.targets_of_undefined? rfl⟩
  have hprogram : Program.ofList instructions = .ok program := rfl
  have hcount : (start program registers).arrivals 0 7 = 1 := by decide +kernel
  obtain ⟨labelled, hlabelled, hruns⟩ := inserted_label_is_passed_over instructions 0 "new" program
    (by decide) (by decide) hprogram
  obtain ⟨hmatches, harrivals, -⟩ := hruns registers {} {}
  refine ⟨program, labelled, hprogram, hlabelled, hcount, ?_, (harrivals 0 rfl).2⟩
  have hmatch := (hmatches 6).1
  rw [hcount] at hmatch
  exact hmatch

end Machine

end Accumulator
