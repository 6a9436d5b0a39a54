import Accumulator.Proofs.Runs
import Mathlib.Data.Nat.Find

/-!
Programs whose jumps all go forward. A step of such a program moves the program counter on, unless
it halts the machine, and so no more steps are ever counted than addresses were passed (`OnCourse`).
There are no more of these than instructions: sooner or later a step makes no progress, and with it
every run ends, whatever its budget. A budget that lets as many steps pass as there are instructions
is never used up.
-/

set_option autoImplicit false
set_option relaxedAutoImplicit false

namespace Accumulator

/-- Every label stands behind all jumps to it. -/
def Program.JumpsForward (program : Program) : Prop :=
  ∀ (i j : Nat) (jump : Instruction) (target : String), program.instructions[i]? = some jump →
    jump.target? = some target → program.instructions[j]? = some (.label target) → i < j

/-! ### Budgets -/

/-- A limit that is reached by some number of steps is reached by every higher number. -/
theorem Limit.reachedBy_mono {limit : Limit} {m n : Nat} (hle : m ≤ n)
    (h : limit.reachedBy m = true) : limit.reachedBy n = true := by
  cases limit with
  | integer value =>
    rw [reachedBy_integer] at h ⊢
    omega
  | fractional value =>
    cases value with
    | nan => contradiction
    | infinite negative => exact h
    | finite negative mantissa exponent =>
      simp only [reachedBy, Decimal.Binary64.atMost, Bool.or_eq_true, decide_eq_true_eq] at h ⊢
      exact h.imp_right fun hreached ↦ Nat.le_trans hreached (Nat.mul_le_mul_right _ hle)

/-- A budget that lets so many steps pass lets fewer pass. -/
theorem Budget.failure?_eq_none_of_le {budget : Budget} {m n : Nat} (hle : m ≤ n)
    (h : budget.failure? n = none) : budget.failure? m = none := by
  cases budget with
  | unlimited => rfl
  | incomparable => contradiction
  | limited limit =>
    simp only [failure?, ite_eq_right_iff, reduceCtorEq, imp_false] at h ⊢
    exact fun hreached ↦ h (Limit.reachedBy_mono hle hreached)

namespace Machine

open Budget (ofLimit? limitFailure)

variable {program : Program} {machine : Machine} {displacement : Int} {n : Nat}

/-! ### Runs that end -/

/-- If only so many steps in a row can make progress, one of the next does not. -/
theorem exists_stop {most : Nat} (hbounded : ∀ n, machine.Progresses n → n ≤ most) :
    ∃ n, machine.Progresses n ∧ (machine.afterSteps n).step.2 ≠ .ok true := by
  by_contra hnone
  have hprogress (n : Nat) : machine.Progresses n := by
    induction n with
    | zero => exact fun i hi ↦ absurd hi (Nat.not_lt_zero i)
    | succ n ih =>
      intro i hi
      rcases Nat.lt_succ_iff_lt_or_eq.mp hi with hbefore | rfl
      · exact ih i hbefore
      · by_contra hstop
        exact hnone ⟨i, ih, hstop⟩
  exact Nat.not_succ_le_self most (hbounded (most + 1) (hprogress (most + 1)))

/-- A run ends at the latest with a step that makes no progress. -/
theorem exists_run_of_stop {fuel : Nat} (hstop : (machine.afterSteps n).step.2 ≠ .ok true)
    (hfuel : n < fuel) (budget : Budget) :
    ∃ last ended, machine.run fuel budget = (last, some ended) := by
  have hverdict : ∃ i, verdictAt budget machine.steps machine i ≠ none := by
    obtain ⟨ended, hended⟩ := exists_verdict hstop budget
      ((machine.afterSteps (n + 1)).steps - machine.steps)
    refine ⟨n, ?_⟩
    rw [verdictAt, hended]
    exact Option.some_ne_none ended
  classical
  have hfirst : Nat.find hverdict ≤ n := by
    refine Nat.find_min' hverdict fun hnone ↦ hstop ?_
    exact ((verdict_eq_none_iff _ _).mp hnone).1
  obtain ⟨ended, hended⟩ := Option.ne_none_iff_exists'.mp (Nat.find_spec hverdict)
  refine ⟨_, ended, (runFrom_eq_some_iff fuel machine).mpr
    ⟨Nat.find hverdict, Nat.lt_of_le_of_lt hfirst hfuel, ?_, hended, rfl⟩⟩
  exact fun i hi ↦ not_not.mp (Nat.find_min hverdict hi)

/-- A budget that lets so many steps pass has no part in how a run goes that makes progress up to
there and no further. -/
theorem run_of_progress {fuel : Nat} {budget : Budget} (hprogress : machine.Progresses n)
    (hstop : (machine.afterSteps n).step.2 ≠ .ok true) (hsilent : budget.failure? n = none)
    (hfuel : n < fuel) :
    machine.run fuel budget = (machine.afterSteps (n + 1), some
      ((machine.afterSteps n).step.2.map fun _ ↦
        (machine.afterSteps (n + 1)).steps - machine.steps)) := by
  refine (runFrom_eq_some_iff fuel machine).mpr ⟨n, hfuel, ?_, ?_, rfl⟩
  · intro i hi
    have hrunning : machine.halted = false :=
      running_of_progress (hprogress 0 (Nat.zero_lt_of_lt hi))
    refine (verdict_eq_none_iff _ _).mpr ⟨hprogress i hi, ?_⟩
    rw [(hprogress.mono hi).taken hrunning]
    exact Budget.failure?_eq_none_of_le hi hsilent
  · unfold verdictAt
    cases hresult : (machine.afterSteps n).step.2 with
    | error failure => rfl
    | ok progressed =>
      cases progressed with
      | true => exact absurd hresult hstop
      | false => rfl

/-! ### How far a machine has come -/

/-- The machine works on the program, and has counted no more steps than it has passed addresses,
that of the halt instruction included if it has halted. -/
structure OnCourse (program : Program) (machine : Machine) : Prop where
  program_eq : machine.program = program
  course : ∃ pc : Nat, machine.registers.pc = .int pc ∧
    machine.steps ≤ pc + machine.halted.toNat ∧ pc + machine.halted.toNat ≤ program.size

theorem OnCourse.steps_le (h : OnCourse program machine) : machine.steps ≤ program.size := by
  obtain ⟨pc, -, hsteps, hle⟩ := h.course
  exact Nat.le_trans hsteps hle

theorem OnCourse.inProgram (h : OnCourse program machine) : InProgram program machine := by
  obtain ⟨pc, hpc, -, hle⟩ := h.course
  exact ⟨h.program_eq, pc, hpc, Nat.le_trans (Nat.le_add_right _ _) hle⟩

theorem onCourse_start (program : Program) (registers : Registers) (input : TokenReader)
    (output : Output) (trace : Option TraceSink) :
    OnCourse program (start program registers input output trace) :=
  ⟨rfl, 0, rfl, Nat.zero_le _, Nat.zero_le _⟩

/-- No instruction leads back. -/
theorem displacement_nonneg (hforward : machine.program.JumpsForward)
    (hattempt : machine.attempt.2 = .ok displacement) : 0 ≤ displacement := by
  obtain ⟨instruction, hcurrent, -, -⟩ := attempt_destination hattempt
  rw [attempt_of_current hcurrent] at hattempt
  rcases execute_displacement hattempt with ⟨-, rfl⟩ | ⟨-, rfl⟩ | ⟨target, htarget, hjump⟩
  · exact Int.le_refl 0
  · exact Int.one_nonneg
  · obtain ⟨address, haddress, htaken, -, -⟩ := exists_jump_of_current hcurrent htarget
    obtain ⟨pc, hpc, hat⟩ := (machine.current?_eq_some_iff instruction).mp hcurrent
    have hbefore : pc < address :=
      hforward pc address instruction target hat htarget
        ((Program.address_eq_ok_iff _ _ _).mp haddress)
    have hdistance : displacement = address - machine.registers.pc.toInt :=
      (Except.ok.inj (htaken.symm.trans hjump)).symm
    omega

theorem OnCourse.step (hforward : program.JumpsForward) (h : OnCourse program machine) :
    OnCourse program machine.step.1 := by
  have hframe := machine.frame_attempt
  obtain ⟨hprogram, pc, hpc, hsteps, hle⟩ := h
  rcases machine.step_cases with ⟨-, hstep⟩ | ⟨after, failure, -, hattempt, hstep⟩ |
    ⟨after, displacement, hrunning, hattempt, hstep⟩
  · rw [hstep]
    exact ⟨hprogram, pc, hpc, hsteps, hle⟩
  · rw [hattempt] at hframe
    rw [hstep]
    refine ⟨hframe.program.trans hprogram, pc, hframe.pc.trans hpc, ?_, ?_⟩
    · rw [hframe.steps, hframe.halted]
      exact hsteps
    · rw [hframe.halted]
      exact hle
  · have hresult : machine.attempt.2 = .ok displacement := by rw [hattempt]
    have hon : 0 ≤ displacement := displacement_nonneg (hprogram ▸ hforward) hresult
    obtain ⟨instruction, hcurrent, -, next, hnext, hinside⟩ := attempt_destination hresult
    obtain ⟨i, hi, hat⟩ := (machine.current?_eq_some_iff instruction).mp hcurrent
    have hlt : i < machine.program.size := (Array.getElem?_eq_some_iff.mp hat).1
    rw [hattempt] at hframe
    rw [hpc, Value.toInt_int] at hnext hi
    rw [hprogram] at hinside hlt
    rw [hrunning, Bool.toNat_false] at hsteps
    -- Either the program counter has moved on, or the halt instruction has been passed.
    have hpassed : pc < next + (decide (displacement = 0)).toNat ∧
        next + (decide (displacement = 0)).toNat ≤ program.size := by
      by_cases hzero : displacement = 0
      · rw [decide_eq_true hzero, Bool.toNat_true]
        omega
      · rw [decide_eq_false hzero, Bool.toNat_false]
        omega
    rw [hstep]
    refine ⟨?_, next, ?_, ?_, ?_⟩
    · rw [commit_program]
      exact hframe.program.trans hprogram
    · rw [commit_registers, hframe.pc, hpc, Value.toInt_int, hnext]
    · rw [commit_steps, commit_halted, hframe.steps, hframe.halted, hrunning, Bool.or_false]
      exact Nat.le_trans (Nat.succ_le_succ hsteps) hpassed.1
    · rw [commit_halted, hframe.halted, hrunning, Bool.or_false]
      exact hpassed.2

/-- All operations but writes to the program counter keep a machine on its course. -/
theorem OnCourse.of_performs (hforward : program.JumpsForward) {operation : Operation}
    {after : Machine} (hperforms : Performs operation machine after)
    (hpc : ∀ value, operation ≠ .setPc value) (h : OnCourse program machine) :
    OnCourse program after := by
  cases hperforms with
  | step => exact h.step hforward
  | @run budget _ _ fuel _ hrun =>
    have hafter := runFrom_preserves (fun _ ↦ OnCourse.step hforward) budget machine.steps fuel
      machine h
    unfold run at hrun
    rw [hrun] at hafter
    exact hafter
  | setTrace => exact ⟨h.program_eq, h.course⟩
  | setAcc => exact ⟨h.program_eq, h.course⟩
  | setPc => exact absurd rfl (hpc _)
  | setRegisters => exact ⟨h.program_eq, h.course⟩

/-- Steps that make progress are counted, so there are not more of them than instructions left. -/
theorem OnCourse.steps_add_le (hforward : program.JumpsForward) (h : OnCourse program machine)
    (hprogress : machine.Progresses n) : machine.steps + n ≤ program.size := by
  cases n with
  | zero => exact h.steps_le
  | succ n =>
    have hrunning : machine.halted = false :=
      running_of_progress (hprogress 0 (Nat.succ_pos n))
    have hafter : OnCourse program (machine.afterSteps (n + 1)) :=
      afterSteps_preserves (fun _ ↦ OnCourse.step hforward) machine h (n + 1)
    rw [← (hprogress.counted hrunning).1]
    exact hafter.steps_le

/-- How a run ends under a budget that has no part in it: the machine halts, runs past the last
instruction, or an instruction or the trace fails. -/
inductive EndsBy (program : Program) (last : Machine) : Except Failure Nat → Prop
  | halt {taken : Nat} (hhalted : last.halted = true) : EndsBy program last (.ok taken)
  | pastEnd (hrunning : last.halted = false) (hpc : last.registers.pc = .int program.size) :
      EndsBy program last (.error (.ofFault (.pcOutOfRange (.int program.size) program.size)))
  | failure {cause : Failure} (hcause : InstructionFailure cause ∨ cause = .brokenTrace) :
      EndsBy program last (.error cause)

theorem OnCourse.endsBy (h : OnCourse program machine)
    (hstop : machine.step.2 ≠ .ok true) (taken : Nat) :
    EndsBy program machine.step.1 (machine.step.2.map fun _ ↦ taken) := by
  cases hresult : machine.step.2 with
  | ok progressed =>
    cases progressed with
    | true => exact absurd hresult hstop
    | false =>
      refine .halt ?_
      cases hhalted : machine.halted with
      | true =>
        rw [step_of_halted hhalted]
        exact hhalted
      | false => exact (step_of_ok hhalted hresult).2
  | error failure =>
    rcases step_failure hresult with ⟨hrunning, hcurrent, hfailure⟩ | hcause
    · have hend := h.inProgram.current?_eq_none_iff.mp hcurrent
      rw [hfailure, hend, h.program_eq, step_of_no_current hrunning hcurrent]
      exact .pastEnd hrunning hend
    · exact .failure hcause

theorem EndsBy.ne_stepLimitExceeded {last : Machine} {ended : Except Failure Nat}
    (h : EndsBy program last ended) (limit : Limit) :
    ended ≠ .error (.fault (.stepLimitExceeded limit)) := by
  rintro rfl
  generalize hended : Except.error (Failure.fault (.stepLimitExceeded limit)) = ended at h
  cases h with
  | halt => contradiction
  | pastEnd =>
    have hfault := ((Failure.ofFault_eq_fault_iff _ _).mp (Except.error.inj hended).symm).1
    contradiction
  | failure hcause =>
    cases hended
    rcases hcause with hcause | hcause
    · rcases hcause.fault with ⟨_, _, heq⟩ | ⟨_, heq⟩ <;> contradiction
    · contradiction

/-- A program whose jumps all go forward takes at most as many steps as it has instructions, however
the machine that was built on it is stepped, run and written to, the program counter apart. So every
run ends, whatever its budget. Under a budget that lets that many steps pass, as every higher limit
does and as no limit does, it ends with the first step that makes no progress: with a halt, past the
last instruction, or by a failure of an instruction or of the trace, but never by its limit. -/
theorem forward_program_ends (program : Program) (hforward : program.JumpsForward)
    (registers : Registers) (input : TokenReader) (output : Output) (trace : Option TraceSink)
    (operations : List Operation) (machine : Machine)
    (hsession : PerformsAll operations (start program registers input output trace) machine)
    (hpc : ∀ value, .setPc value ∉ operations) :
    machine.steps ≤ program.size ∧
    (∀ fuel budget, program.size < fuel → ∃ last ended,
      machine.run fuel budget = (last, some ended) ∧ last.steps ≤ program.size) ∧
    ∃ n ended, machine.Progresses n ∧ (machine.afterSteps (n + 1)).steps ≤ program.size ∧
      EndsBy program (machine.afterSteps (n + 1)) ended ∧
      (∀ limit, ended ≠ .error (.fault (.stepLimitExceeded limit))) ∧
      (∀ fuel budget, program.size < fuel → budget.failure? program.size = none →
        machine.run fuel budget = (machine.afterSteps (n + 1), some ended)) ∧
      ∀ fuel (limit? : Option Int), program.size < fuel →
        (∀ limit ∈ limit?, (program.size : Int) < limit) →
          machine.run fuel (ofLimit? limit?) = (machine.afterSteps (n + 1), some ended) := by
  have hcourse : OnCourse program machine := by
    refine hsession.preserves ?_ (onCourse_start program registers input output trace)
    intro operation hmem before after hperforms
    refine OnCourse.of_performs hforward hperforms ?_
    rintro value rfl
    exact hpc value hmem
  have hafter (n : Nat) : OnCourse program (machine.afterSteps n) :=
    afterSteps_preserves (fun _ ↦ OnCourse.step hforward) machine hcourse n
  obtain ⟨n, hprogress, hstop⟩ := exists_stop fun n hprogress ↦
    Nat.le_trans (Nat.le_add_left n machine.steps) (hcourse.steps_add_le hforward hprogress)
  have hbounded : n ≤ program.size :=
    Nat.le_trans (Nat.le_add_left _ _) (hcourse.steps_add_le hforward hprogress)
  have hended := (hafter n).endsBy hstop ((machine.afterSteps (n + 1)).steps - machine.steps)
  have hrun (fuel : Nat) (budget : Budget) (hfuel : program.size < fuel)
      (hsilent : budget.failure? program.size = none) :=
    run_of_progress hprogress hstop (Budget.failure?_eq_none_of_le hbounded hsilent)
      (Nat.lt_of_le_of_lt hbounded hfuel)
  refine ⟨hcourse.steps_le, ?_, n, _, hprogress, (hafter (n + 1)).steps_le, hended,
    hended.ne_stepLimitExceeded, hrun, ?_⟩
  · intro fuel budget hfuel
    obtain ⟨last, ended, hlast⟩ :=
      exists_run_of_stop hstop (Nat.lt_of_le_of_lt hbounded hfuel) budget
    have hstill := runFrom_preserves (fun _ ↦ OnCourse.step hforward) budget machine.steps fuel
      machine hcourse
    unfold run at hlast
    rw [hlast] at hstill
    exact ⟨last, ended, hlast, hstill.steps_le⟩
  · intro fuel limit? hfuel habove
    refine hrun fuel (ofLimit? limit?) hfuel ?_
    cases limit? with
    | none => rfl
    | some limit =>
      have hlt : (program.size : Int) < limit := habove limit rfl
      rw [ofLimit?, Budget.failure?_upTo, if_neg (by omega)]

/-- A jump that is not taken, then an addition and the label: the halt behind them is the fourth of
four steps, of which the first was taken alone. -/
theorem forward_program_of_untaken_jump :
    let program : Program := ⟨#[.jumpIfZero "end", .add (.int 0), .label "end", .halt],
      [("end", 2)], rfl, by decide, Labels.targets_of_undefined? rfl⟩
    let machine := (start program { r := [.int 5], acc := .int 3 }).step.1
    program.JumpsForward ∧
      ∃ last, machine.run 5 (ofLimit? (some 5)) = (last, some (.ok 3)) ∧
        last.steps ≤ program.size ∧ EndsBy program last (.ok 3) := by
  intro program machine
  have hforward : program.JumpsForward := by
    intro i j jump target hjump htarget hlabel
    have hi : i < 4 := (Array.getElem?_eq_some_iff.mp hjump).1
    have hj : j < 4 := (Array.getElem?_eq_some_iff.mp hlabel).1
    have hat : i = 0 := by
      by_contra hne
      obtain rfl | rfl | rfl : i = 1 ∨ i = 2 ∨ i = 3 := by omega
      all_goals
        cases hjump
        contradiction
    subst hat
    by_contra hle
    obtain rfl : j = 0 := by omega
    cases hlabel
  refine ⟨hforward, ?_⟩
  have hsession : PerformsAll [.step] (start program { r := [.int 5], acc := .int 3 }) machine :=
    .cons (.step _) (.nil _)
  obtain ⟨-, -, n, ended, -, hsteps, hends, -, -, hrun⟩ :=
    forward_program_ends program hforward _ _ _ _ _ machine hsession (by simp)
  have hlast := hrun 5 (some 5) (by decide) (by decide)
  have hcomputed : (machine.run 5 (ofLimit? (some 5))).2 = some (.ok 3) := rfl
  rw [hlast] at hcomputed
  cases hcomputed
  exact ⟨_, hlast, hsteps, hends⟩

/-- As many steps as there are instructions may all make progress. -/
example :
    let program : Program := ⟨#[.label "end"], [("end", 0)], rfl, by decide,
      Labels.targets_of_undefined? rfl⟩
    ((start program { r := [] }).run 1 (ofLimit? (some 1))).2 =
      some (.error (limitFailure 1)) := rfl

end Machine

end Accumulator
