import Accumulator.Proofs.ProgramCounter

/-!
The same instructions elsewhere. One program embeds in another if its instructions stand there too,
at other places and with other names for their labels (`Program.Embeds`). Its label table comes
along, for the addresses of labels are where their instructions are. So an instruction does the same
in both programs, but for the distance that a taken jump covers (`attempt_elsewhere_of_jump`), and a
step leads to corresponding places unless it goes on to the next address and what stands there has
been moved apart (`step_elsewhere_of_ok`).
-/

set_option autoImplicit false
set_option relaxedAutoImplicit false

namespace Accumulator

namespace Instruction

/-- The instruction with another name for the label that it defines or refers to. -/
def renamed (rename : String → String) : Instruction → Instruction
  | .label name => .label (rename name)
  | .jump target => .jump (rename target)
  | .jumpIfZero target => .jumpIfZero (rename target)
  | .jumpIfNonNegative target => .jumpIfNonNegative (rename target)
  | i => i

@[simp] theorem renamed_id (i : Instruction) : i.renamed id = i := by
  cases i <;> rfl

theorem target?_renamed (rename : String → String) (i : Instruction) :
    (i.renamed rename).target? = i.target?.map rename := by
  cases i <;> rfl

theorem name?_renamed (rename : String → String) (i : Instruction) :
    (i.renamed rename).name? = i.name?.map rename := by
  cases i <;> rfl

/-- The label to which the instruction jumps, given the accumulator: none unless it is a jump that
is taken. -/
def taken? (acc : Value) : Instruction → Option String
  | .jump target => some target
  | .jumpIfZero target => if acc.toInt = 0 then some target else none
  | .jumpIfNonNegative target => if 0 ≤ acc.toInt then some target else none
  | _ => none

theorem taken?_renamed (rename : String → String) (acc : Value) (i : Instruction) :
    (i.renamed rename).taken? acc = (i.taken? acc).map rename := by
  cases i with
  | jumpIfZero target =>
    simp only [renamed, taken?]
    split <;> rfl
  | jumpIfNonNegative target =>
    simp only [renamed, taken?]
    split <;> rfl
  | _ => rfl

end Instruction

/-- The other program has the instructions of the first, at other places and with other names for
their labels. -/
def Program.Embeds (place : Nat → Nat) (rename : String → String) (program other : Program) :
    Prop :=
  ∀ i instruction, program.instructions[i]? = some instruction →
    other.instructions[place i]? = some (instruction.renamed rename)

theorem Program.Embeds.address {place : Nat → Nat} {rename : String → String}
    {program other : Program} (h : program.Embeds place rename other) {name : String}
    {address : Nat} (haddress : program.address name = .ok address) :
    other.address (rename name) = .ok (place address) := by
  rw [address_eq_ok_iff] at haddress ⊢
  exact h address _ haddress

theorem Program.size_of_ofList {instructions : List Instruction} {program : Program}
    (h : ofList instructions = .ok program) : program.size = instructions.length := by
  rw [size, instructions_of_ofList h, List.size_toArray]

namespace Machine

variable {machine after : Machine} {instruction : Instruction}

/-! ### Machines in their program -/

/-- On its program, not further than its end, and without a trace. -/
structure Inside (program : Program) (machine : Machine) : Prop where
  inProgram : InProgram program machine
  untraced : machine.trace = none

theorem inside_start (program : Program) (registers : Registers) (input : TokenReader)
    (output : Output) : Inside program (start program registers input output) :=
  ⟨inProgram_start program registers input output none, rfl⟩

theorem Inside.step {program : Program} (h : Inside program machine) :
    Inside program machine.step.1 :=
  ⟨inProgram_step h.inProgram, machine.trace_step.trans h.untraced⟩

theorem Inside.afterSteps {program : Program} (h : Inside program machine) (n : Nat) :
    Inside program (machine.afterSteps n) :=
  afterSteps_preserves (fun _ hbefore ↦ hbefore.step) machine h n

/-! ### Other programs, other places -/

/-- The machine on another program, at some place in it, with another count of steps and other
reports. -/
def elsewhere (machine : Machine) (program : Program) (pc : Value) (steps : Nat)
    (journal : Array Event) : Machine :=
  { machine with program, registers := { machine.registers with pc }, steps, journal }

/-- The label to which the next instruction jumps. -/
def jumpsTo? (machine : Machine) : Option String :=
  machine.current?.bind (·.taken? machine.registers.acc)

/-- The next step goes on to the next address, and not by a jump. -/
def goesOn (machine : Machine) : Bool :=
  machine.jumpsTo?.isNone &&
    decide (machine.step.1.registers.pc.toInt = machine.registers.pc.toInt + 1)

theorem goesOn_of_jumpsTo {target : String} (hjumps : machine.jumpsTo? = some target) :
    machine.goesOn = false := by
  rw [goesOn, hjumps, Option.isNone_some, Bool.false_and]

theorem goesOn_of_stay (hjumps : machine.jumpsTo? = none) {displacement : Int}
    (hpc : machine.step.1.registers.pc = .int (machine.registers.pc.toInt + displacement)) :
    machine.goesOn = decide (displacement = 1) := by
  rw [goesOn, hjumps, hpc, Option.isNone_none, Bool.true_and, Value.toInt_int, decide_eq_decide]
  omega

theorem goesOn_of_rest (hpc : machine.step.1.registers.pc = machine.registers.pc) :
    machine.goesOn = false := by
  have hne : machine.registers.pc.toInt ≠ machine.registers.pc.toInt + 1 := by omega
  rw [goesOn, hpc, decide_eq_false hne, Bool.and_false]

/-! ### Instructions -/

theorem execute_of_taken {target : String}
    (h : instruction.taken? machine.registers.acc = some target) :
    machine.execute instruction = (machine, machine.jump target) := by
  cases instruction with
  | jump name =>
    cases h
    rfl
  | jumpIfZero name =>
    obtain ⟨hzero, hname⟩ := Option.ite_none_right_eq_some.mp h
    cases hname
    exact congrArg (Prod.mk machine) (if_pos hzero)
  | jumpIfNonNegative name =>
    obtain ⟨hnonneg, hname⟩ := Option.ite_none_right_eq_some.mp h
    cases hname
    exact congrArg (Prod.mk machine) (if_pos hnonneg)
  | _ => contradiction

theorem execute_of_untaken {target : String} (htarget : instruction.target? = some target)
    (hstays : instruction.taken? machine.registers.acc = none) :
    machine.execute instruction = (machine, .ok 1) := by
  cases instruction with
  | jump name => contradiction
  | jumpIfZero name =>
    have hnonzero : ¬ machine.registers.acc.toInt = 0 := fun hzero ↦ by
      rw [Instruction.taken?, if_pos hzero] at hstays
      contradiction
    exact congrArg (Prod.mk machine) (if_neg hnonzero)
  | jumpIfNonNegative name =>
    have hnegative : ¬ 0 ≤ machine.registers.acc.toInt := fun hnonneg ↦ by
      rw [Instruction.taken?, if_pos hnonneg] at hstays
      contradiction
    exact congrArg (Prod.mk machine) (if_neg hnegative)
  | _ => contradiction

/-- Unless the next instruction is a jump that is taken, it moves the program counter by one, or
not at all. -/
theorem displacement_of_stay {displacement : Int} (hjumps : machine.jumpsTo? = none)
    (h : machine.attempt.2 = .ok displacement) : displacement = 0 ∨ displacement = 1 := by
  obtain ⟨instruction, hcurrent, -⟩ := attempt_destination h
  rw [attempt_of_current hcurrent] at h
  rw [jumpsTo?, hcurrent, Option.bind_some] at hjumps
  rcases execute_displacement h with ⟨-, hzero⟩ | ⟨-, hone⟩ | ⟨target, htarget, -⟩
  · exact Or.inl hzero
  · exact Or.inr hone
  · rw [execute_of_untaken htarget hjumps] at h
    exact Or.inr (Except.ok.inj h).symm

/-- The jump that the next instruction makes leads to an address other than its own. -/
theorem exists_address_of_jumpsTo {target : String} (h : machine.jumpsTo? = some target) :
    ∃ address : Nat, machine.program.address target = .ok address ∧
      machine.attempt = (machine, .ok (address - machine.registers.pc.toInt)) ∧
      address < machine.program.size ∧ (address : Int) ≠ machine.registers.pc.toInt := by
  obtain ⟨instruction, hcurrent, htaken⟩ := Option.bind_eq_some_iff.mp h
  have hexecute := execute_of_taken htaken
  have htarget : instruction.target? = some target := by
    cases instruction with
    | jump name => exact htaken
    | jumpIfZero name => exact (Option.ite_none_right_eq_some.mp htaken).2
    | jumpIfNonNegative name => exact (Option.ite_none_right_eq_some.mp htaken).2
    | _ => contradiction
  obtain ⟨address, haddress, hjump, hinside, hne⟩ := exists_jump_of_current hcurrent htarget
  refine ⟨address, haddress, ?_, hinside, hne⟩
  rw [attempt_of_current hcurrent, hexecute, hjump]

section

variable (program : Program) (pc : Value) (steps : Nat) (journal : Array Event)

theorem accumulate_elsewhere (machine : Machine) (index : Value)
    (combine : Value → Value → Value) :
    (machine.elsewhere program pc steps journal).accumulate index combine =
      ((machine.accumulate index combine).1.elsewhere program pc steps journal,
        (machine.accumulate index combine).2) := by
  have hload : (machine.elsewhere program pc steps journal).registers.load index =
      machine.registers.load index := rfl
  unfold accumulate
  rw [hload]
  cases machine.registers.load index <;> rfl

theorem storeAcc_elsewhere (machine : Machine) (index : Value) :
    (machine.elsewhere program pc steps journal).storeAcc index =
      ((machine.storeAcc index).1.elsewhere program pc steps journal,
        (machine.storeAcc index).2) := by
  have hsize : (machine.elsewhere program pc steps journal).registers.size =
      machine.registers.size := rfl
  unfold storeAcc
  cases hindex : index.index? machine.registers.size with
  | none =>
    rw [Registers.store_of_outOfRange hindex, Registers.store_of_outOfRange (hsize ▸ hindex)]
    rfl
  | some i =>
    rw [Registers.store_of_inRange hindex, Registers.store_of_inRange (hsize ▸ hindex)]
    rfl

/-- Unless it is a jump that is taken, an instruction does the same at any place of any program. -/
theorem execute_elsewhere (machine : Machine) (rename : String → String)
    (hstays : instruction.taken? machine.registers.acc = none) :
    (machine.elsewhere program pc steps journal).execute (instruction.renamed rename) =
      ((machine.execute instruction).1.elsewhere program pc steps journal,
        (machine.execute instruction).2) := by
  have hstays' : (instruction.renamed rename).taken? machine.registers.acc = none := by
    rw [Instruction.taken?_renamed, hstays]
    rfl
  cases instruction with
  | label name => rfl
  | add index =>
    simp only [Instruction.renamed, execute]
    exact machine.accumulate_elsewhere program pc steps journal index _
  | sub index =>
    simp only [Instruction.renamed, execute]
    exact machine.accumulate_elsewhere program pc steps journal index _
  | store index => exact machine.storeAcc_elsewhere program pc steps journal index
  | load index =>
    simp only [Instruction.renamed, execute]
    exact machine.accumulate_elsewhere program pc steps journal index _
  | jump target => contradiction
  | jumpIfZero target =>
    have htarget : (Instruction.jumpIfZero target).target? = some target := rfl
    rw [execute_of_untaken htarget hstays]
    exact execute_of_untaken (Instruction.target?_renamed rename _) hstays'
  | jumpIfNonNegative target =>
    have htarget : (Instruction.jumpIfNonNegative target).target? = some target := rfl
    rw [execute_of_untaken htarget hstays]
    exact execute_of_untaken (Instruction.target?_renamed rename _) hstays'
  | halt => rfl
  | input prompt =>
    simp only [Instruction.renamed, execute, readAcc, elsewhere]
    split
    · rfl
    · split <;> rfl
  | output prompt =>
    simp only [Instruction.renamed, execute, writeAcc, elsewhere]
    split
    · rfl
    · split <;> rfl

end

/-! ### Steps -/

section

variable {place : Nat → Nat} {rename : String → String} {other : Program} {pc : Value}
  {steps : Nat} {journal : Array Event} {i : Nat}

theorem current?_elsewhere (hembeds : machine.program.Embeds place rename other)
    (hpc : machine.registers.pc.toInt = i) (hplace : pc.toInt = place i)
    (hcurrent : machine.current? = some instruction) :
    (machine.elsewhere other pc steps journal).current? = some (instruction.renamed rename) := by
  obtain ⟨j, hj, hat⟩ := (machine.current?_eq_some_iff instruction).mp hcurrent
  have heq : j = i := by omega
  rw [heq] at hat
  exact (current?_eq_some_iff _ _).mpr ⟨place i, hplace, hembeds i instruction hat⟩

theorem attempt_elsewhere_of_stay (hembeds : machine.program.Embeds place rename other)
    (hpc : machine.registers.pc.toInt = i) (hplace : pc.toInt = place i)
    (hcurrent : machine.current? = some instruction) (hstays : machine.jumpsTo? = none) :
    (machine.elsewhere other pc steps journal).attempt =
      (machine.attempt.1.elsewhere other pc steps journal, machine.attempt.2) := by
  rw [jumpsTo?, hcurrent, Option.bind_some] at hstays
  rw [attempt_of_current (current?_elsewhere hembeds hpc hplace hcurrent),
    attempt_of_current hcurrent]
  exact machine.execute_elsewhere other pc steps journal rename hstays

/-- A jump that is taken leads to the place of its address. -/
theorem attempt_elsewhere_of_jump (hembeds : machine.program.Embeds place rename other)
    (hpc : machine.registers.pc.toInt = i) (hplace : pc.toInt = place i) {target : String}
    (hjumps : machine.jumpsTo? = some target) :
    ∃ address : Nat, machine.attempt = (machine, .ok (address - i)) ∧ address ≠ i ∧
      address < machine.program.size ∧
      (machine.elsewhere other pc steps journal).attempt =
        (machine.elsewhere other pc steps journal, .ok (place address - place i)) := by
  obtain ⟨address, haddress, hattempt, hinside, hne⟩ := exists_address_of_jumpsTo hjumps
  obtain ⟨instruction, hcurrent, htaken⟩ := Option.bind_eq_some_iff.mp hjumps
  have htaken' : (instruction.renamed rename).taken?
      (machine.elsewhere other pc steps journal).registers.acc = some (rename target) := by
    rw [Instruction.taken?_renamed]
    exact congrArg (Option.map rename) htaken
  have hfound : (machine.elsewhere other pc steps journal).program.address (rename target) =
      .ok (place address) := hembeds.address haddress
  have hpc' : (machine.elsewhere other pc steps journal).registers.pc.toInt = place i := hplace
  refine ⟨address, by rw [hattempt, hpc], by omega, hinside, ?_⟩
  rw [attempt_of_current (current?_elsewhere hembeds hpc hplace hcurrent),
    execute_of_taken htaken', jump, hfound, hpc']

theorem step_elsewhere_of_error {failure : Failure} (hrunning : machine.halted = false)
    (hattempt : machine.attempt = (after, .error failure))
    (hother : (machine.elsewhere other pc steps journal).attempt =
      (after.elsewhere other pc steps journal, .error failure)) :
    machine.step = (after, .error failure) ∧
      (machine.elsewhere other pc steps journal).step =
        (after.elsewhere other pc steps journal, .error failure) := by
  have hrunning' : (machine.elsewhere other pc steps journal).halted = false := hrunning
  rw [step_of_running hrunning, step_of_running hrunning', hattempt, hother]
  exact ⟨rfl, rfl⟩

/-- Steps that are executed at two places lead on from there, and both halt or neither does. -/
theorem step_elsewhere_of_ok {displacement distance : Int} (hrunning : machine.halted = false)
    (huntraced : machine.trace = none) (hattempt : machine.attempt = (after, .ok displacement))
    (hother : (machine.elsewhere other pc steps journal).attempt =
      (after.elsewhere other pc steps journal, .ok distance))
    (hhalts : distance = 0 ↔ displacement = 0) :
    machine.step.2 = .ok (decide (displacement ≠ 0)) ∧
      machine.step.1.registers.pc = .int (machine.registers.pc.toInt + displacement) ∧
      machine.step.1.steps = machine.steps + 1 ∧
      ∃ reports, (machine.elsewhere other pc steps journal).step =
        (machine.step.1.elsewhere other (.int (pc.toInt + distance)) (steps + 1) reports,
          machine.step.2) := by
  have hrunning' : (machine.elsewhere other pc steps journal).halted = false := hrunning
  have huntraced' : (machine.elsewhere other pc steps journal).trace = none := huntraced
  have hframe := machine.frame_attempt
  rw [hattempt] at hframe
  obtain ⟨_, hstep⟩ := step_of_attempt_ok hrunning huntraced hattempt
  obtain ⟨reports, hstep'⟩ := step_of_attempt_ok hrunning' huntraced' hother
  rw [hstep, hstep']
  refine ⟨rfl, by rw [moved, hframe.pc], by rw [moved, hframe.steps], reports, ?_⟩
  simp only [moved, elsewhere, hhalts, ne_eq]

theorem step_elsewhere_of_stay (hembeds : machine.program.Embeds place rename other)
    (hpc : machine.registers.pc = .int i) (hrunning : machine.halted = false)
    (huntraced : machine.trace = none) (hcurrent : machine.current? = some instruction)
    (hstays : machine.jumpsTo? = none) (extra : Nat) :
    ∃ next : Nat, machine.step.1.registers.pc = .int next ∧ ∃ reports,
      (machine.elsewhere other (.int (place i)) (machine.steps + extra) journal).step =
        (machine.step.1.elsewhere other
          (.int (if machine.goesOn then place i + 1 else place next : Nat))
          (machine.step.1.steps + extra) reports, machine.step.2) := by
  have hpc' : machine.registers.pc.toInt = i := by rw [hpc, Value.toInt_int]
  have hat : (Value.int (place i)).toInt = place i := Value.toInt_int _
  have hother := @attempt_elsewhere_of_stay machine instruction place rename other
    (.int (place i)) (machine.steps + extra) journal i hembeds hpc' hat hcurrent hstays
  have hframe := machine.frame_attempt
  rcases hattempt : machine.attempt with ⟨after, failure | displacement⟩
  · rw [hattempt] at hother hframe
    obtain ⟨hstep, hstep'⟩ := step_elsewhere_of_error hrunning hattempt hother
    have hrest : machine.step.1.registers.pc = machine.registers.pc := by
      rw [hstep, hframe.pc]
    refine ⟨i, hrest.trans hpc, journal, ?_⟩
    rw [goesOn_of_rest hrest, hstep', hstep, hframe.steps]
    rfl
  · rw [hattempt] at hother
    have hresult : machine.attempt.2 = .ok displacement := by rw [hattempt]
    obtain ⟨-, hnext, hsteps, reports, hstep⟩ :=
      step_elsewhere_of_ok hrunning huntraced hattempt hother Iff.rfl
    have hgoes := goesOn_of_stay hstays hnext
    rw [hpc'] at hnext
    rw [hat, Nat.add_right_comm, ← hsteps] at hstep
    rcases displacement_of_stay hstays hresult with rfl | rfl
    · rw [Int.add_zero] at hnext hstep
      exact ⟨i, hnext, reports, hgoes ▸ hstep⟩
    · exact ⟨i + 1, hnext, reports, hgoes ▸ hstep⟩

theorem step_elsewhere_of_jump (hplace : Function.Injective place)
    (hembeds : machine.program.Embeds place rename other)
    (hpc : machine.registers.pc = .int i) (hrunning : machine.halted = false)
    (huntraced : machine.trace = none) {target : String} (hjumps : machine.jumpsTo? = some target)
    (extra : Nat) :
    ∃ next : Nat, machine.step.1.registers.pc = .int next ∧ ∃ reports,
      (machine.elsewhere other (.int (place i)) (machine.steps + extra) journal).step =
        (machine.step.1.elsewhere other (.int (place next)) (machine.step.1.steps + extra) reports,
          machine.step.2) := by
  have hpc' : machine.registers.pc.toInt = i := by rw [hpc, Value.toInt_int]
  have hat : (Value.int (place i)).toInt = place i := Value.toInt_int _
  obtain ⟨address, hattempt, hne, -, hother⟩ := @attempt_elsewhere_of_jump machine place rename
    other (.int (place i)) (machine.steps + extra) journal i hembeds hpc' hat target hjumps
  have hne' : place address ≠ place i := hplace.ne hne
  have hcovers (here there : Nat) : (here : Int) + (there - here) = there := by omega
  obtain ⟨-, hnext, hsteps, reports, hstep⟩ :=
    step_elsewhere_of_ok hrunning huntraced hattempt hother (by omega)
  rw [hpc', hcovers] at hnext
  rw [hat, hcovers, Nat.add_right_comm, ← hsteps] at hstep
  exact ⟨address, hnext, reports, hstep⟩

/-- A step of a machine without a trace leads to corresponding places, unless it goes on: then it
leads to what comes next at either place. -/
theorem step_elsewhere (hplace : Function.Injective place)
    (hembeds : machine.program.Embeds place rename other) (huntraced : machine.trace = none)
    (hpc : machine.registers.pc = .int i)
    (hcurrent : machine.halted = false → machine.current? ≠ none) (extra : Nat) :
    ∃ next : Nat, machine.step.1.registers.pc = .int next ∧ ∃ reports,
      (machine.elsewhere other (.int (place i)) (machine.steps + extra) journal).step =
        (machine.step.1.elsewhere other
          (.int (if machine.goesOn then place i + 1 else place next : Nat))
          (machine.step.1.steps + extra) reports, machine.step.2) := by
  cases hhalted : machine.halted with
  | true =>
    have hhalted' : (machine.elsewhere other (.int (place i)) (machine.steps + extra)
        journal).halted = true := hhalted
    have hrest : machine.step.1.registers.pc = machine.registers.pc := by
      rw [step_of_halted hhalted]
    refine ⟨i, hrest.trans hpc, journal, ?_⟩
    rw [goesOn_of_rest hrest, step_of_halted hhalted, step_of_halted hhalted']
    rfl
  | false =>
    obtain ⟨instruction, hsome⟩ := Option.ne_none_iff_exists'.mp (hcurrent hhalted)
    cases hjumps : machine.jumpsTo? with
    | none => exact step_elsewhere_of_stay hembeds hpc hhalted huntraced hsome hjumps extra
    | some target =>
      rw [goesOn_of_jumpsTo hjumps]
      exact step_elsewhere_of_jump hplace hembeds hpc hhalted huntraced hjumps extra

end

/-! ### At the same places -/

/-- The machine on another program. -/
def onto (machine : Machine) (program : Program) : Machine := { machine with program }

theorem advance_onto (machine : Machine) (program : Program) (displacement : Int) :
    (machine.onto program).advance displacement = (machine.advance displacement).onto program := by
  simp only [advance, apply_ite (onto · program)]
  rfl

section

variable {rename : String → String} {other : Program}

theorem attempt_onto (hembeds : machine.program.Embeds id rename other)
    (hend : machine.current? = none → other.size = machine.program.size) :
    (machine.onto other).attempt = (machine.attempt.1.onto other, machine.attempt.2) := by
  cases hcurrent : machine.current? with
  | none =>
    have hsize := hend hcurrent
    have hnone : (machine.onto other).current? = none := by
      rw [current?_eq_none_iff] at hcurrent ⊢
      rwa [← hsize] at hcurrent
    have hsize' : (machine.onto other).program.size = machine.program.size := hsize
    rw [attempt_of_no_current hnone, attempt_of_no_current hcurrent, hsize']
    rfl
  | some instruction =>
    obtain ⟨i, hpc, -⟩ := (machine.current?_eq_some_iff instruction).mp hcurrent
    have honto : machine.onto other =
        machine.elsewhere other machine.registers.pc machine.steps machine.journal := rfl
    have hframe := machine.frame_attempt
    have hafter : machine.attempt.1.onto other =
        machine.attempt.1.elsewhere other machine.registers.pc machine.steps machine.journal := by
      rw [← hframe.pc, ← hframe.steps, ← hframe.journal]
      rfl
    rw [honto, hafter]
    cases hjumps : machine.jumpsTo? with
    | none => exact attempt_elsewhere_of_stay hembeds hpc hpc hcurrent hjumps
    | some target =>
      obtain ⟨address, hattempt, -, -, hother⟩ := attempt_elsewhere_of_jump hembeds hpc hpc hjumps
      rw [hother, hattempt]
      rfl

/-- A step of a machine without a trace is the same on a program that has the instructions at the
same addresses, except that behind the end of its own program a longer one may go on. -/
theorem step_onto (hembeds : machine.program.Embeds id rename other)
    (huntraced : machine.trace = none)
    (hend : machine.halted = false → machine.current? = none →
      other.size = machine.program.size) :
    (machine.onto other).step = (machine.step.1.onto other, machine.step.2) := by
  rcases machine.step_cases with ⟨hhalted, hstep⟩ | ⟨after, failure, hrunning, hattempt, hstep⟩ |
    ⟨after, displacement, hrunning, hattempt, hstep⟩
  · have hhalted' : (machine.onto other).halted = true := hhalted
    rw [hstep, step_of_halted hhalted']
  · have hrunning' : (machine.onto other).halted = false := hrunning
    rw [hstep, step_of_running hrunning', attempt_onto hembeds (hend hrunning), hattempt]
  · have hrunning' : (machine.onto other).halted = false := hrunning
    have hframe := machine.frame_attempt
    rw [hattempt] at hframe
    have htrace : after.trace = none := hframe.trace.trans huntraced
    have htrace' : (after.onto other).trace = none := htrace
    rw [hstep, step_of_running hrunning', attempt_onto hembeds (hend hrunning), hattempt]
    simp only
    rw [commit_of_untraced htrace, commit_of_untraced htrace', advance_onto]
    rfl

end

end Machine

end Accumulator
