import Accumulator.Proofs.Session
import Accumulator.Proofs.Step

/-!
Two machines in lockstep. A step is the same for two machines whose instructions do the same, up to
a change that a commitment does not notice (`Neutral.step`). If the first steps of two machines have
the same results (`Agree`), so have the runs and the sessions that these steps are all of: a run is
the steps it calls for (`runFrom_fst_eq`), and so is a session (`Calls.last_eq`).
-/

set_option autoImplicit false
set_option relaxedAutoImplicit false

namespace Accumulator.Machine

variable {machine twin first second last : Machine} {budget : Budget} {begun fuel m n : Nat}

/-! ### Single steps -/

/-- A change that is the same before and after the program counter is moved, and that neither the
trace nor a halt has to do with. -/
structure Neutral (change : Machine → Machine) : Prop where
  halted : ∀ machine, (change machine).halted = machine.halted
  trace : ∀ machine, (change machine).trace = machine.trace
  advance : ∀ machine displacement,
    (change machine).advance displacement = change (machine.advance displacement)

theorem Neutral.step {change : Machine → Machine} (h : Neutral change)
    (hrunning : machine.halted = false) (hrunning' : twin.halted = false)
    (huntraced : machine.trace = none)
    (hattempt : twin.attempt = (change machine.attempt.1, machine.attempt.2)) :
    twin.step = (change machine.step.1, machine.step.2) := by
  have hframe := machine.frame_attempt
  rw [step_of_running hrunning, step_of_running hrunning', hattempt]
  rcases hresult : machine.attempt with ⟨after, failure | displacement⟩
  · rfl
  · rw [hresult] at hframe
    have htrace : after.trace = none := hframe.trace.trans huntraced
    have htrace' : (change after).trace = none := (h.trace after).trans htrace
    simp only
    rw [commit_of_untraced htrace, commit_of_untraced htrace', h.advance, h.halted]

/-! ### The steps of a run -/

/-- How many steps a run calls for, with the one that ends it. -/
def callsFrom (budget : Budget) (begun : Nat) : Nat → Machine → Nat
  | 0, _ => 0
  | fuel + 1, machine =>
      match verdict budget (machine.step.1.steps - begun) machine.step.2 with
      | none => callsFrom budget begun fuel machine.step.1 + 1
      | some _ => 1

def callsOfRun (machine : Machine) (fuel : Nat) (budget : Budget) : Nat :=
  callsFrom budget machine.steps fuel machine

/-- A run leaves what its steps leave. -/
theorem runFrom_fst_eq (budget : Budget) (begun fuel : Nat) (machine : Machine) :
    (runFrom budget begun fuel machine).1 =
      machine.afterSteps (callsFrom budget begun fuel machine) := by
  induction fuel generalizing machine with
  | zero => rfl
  | succ fuel ih =>
    rw [runFrom_succ, callsFrom]
    cases verdict budget (machine.step.1.steps - begun) machine.step.2 with
    | none => rw [afterSteps_succ, ← ih]
    | some ended => rfl

theorem run_fst_eq (machine : Machine) (fuel : Nat) (budget : Budget) :
    (machine.run fuel budget).1 = machine.afterSteps (machine.callsOfRun fuel budget) :=
  runFrom_fst_eq budget machine.steps fuel machine

/-- So many steps of the two machines have the same results and are counted alike. -/
structure Agree (n : Nat) (first second : Machine) : Prop where
  steps : ∀ i ≤ n, (second.afterSteps i).steps = (first.afterSteps i).steps
  results : ∀ i < n, (second.afterSteps i).step.2 = (first.afterSteps i).step.2

theorem Agree.behind (h : Agree (m + n) first second) :
    Agree n (first.afterSteps m) (second.afterSteps m) := by
  constructor
  · intro i hi
    rw [← afterSteps_add, ← afterSteps_add]
    exact h.steps (m + i) (by omega)
  · intro i hi
    rw [← afterSteps_add, ← afterSteps_add]
    exact h.results (m + i) (by omega)

theorem Agree.mono (h : Agree n first second) (hle : m ≤ n) : Agree m first second :=
  ⟨fun i hi ↦ h.steps i (Nat.le_trans hi hle), fun i hi ↦ h.results i (Nat.lt_of_lt_of_le hi hle)⟩

/-- A run takes its course by the results of its steps. -/
theorem Agree.runFrom (h : Agree (callsFrom budget begun fuel first) first second) :
    callsFrom budget begun fuel second = callsFrom budget begun fuel first ∧
      (runFrom budget begun fuel second).2 = (runFrom budget begun fuel first).2 := by
  induction fuel generalizing first second with
  | zero => exact ⟨rfl, rfl⟩
  | succ fuel ih =>
    have hpositive : 0 < callsFrom budget begun (fuel + 1) first := by
      rw [callsFrom]
      split <;> omega
    have hresult : second.step.2 = first.step.2 := h.results 0 hpositive
    have hsteps : second.step.1.steps = first.step.1.steps := h.steps 1 hpositive
    rw [callsFrom] at h
    rw [runFrom_succ, runFrom_succ, callsFrom, callsFrom, hresult, hsteps]
    cases hverdict : verdict budget (first.step.1.steps - begun) first.step.2 with
    | some ended => exact ⟨rfl, rfl⟩
    | none =>
      rw [hverdict, Nat.add_comm] at h
      obtain ⟨hcalls, hended⟩ := ih h.behind
      exact ⟨congrArg (· + 1) hcalls, hended⟩

theorem Agree.run (h : Agree (first.callsOfRun fuel budget) first second) :
    second.callsOfRun fuel budget = first.callsOfRun fuel budget ∧
      (second.run fuel budget).2 = (first.run fuel budget).2 := by
  have hbegun : second.steps = first.steps := h.steps 0 (Nat.zero_le _)
  unfold callsOfRun Machine.run
  rw [hbegun]
  exact Agree.runFrom h

/-! ### The steps of a session -/

/-- A session of steps and runs calls for so many steps and leads from the first machine to the
last. -/
inductive Calls : List Operation → Machine → Nat → Machine → Prop
  | nil (machine : Machine) : Calls [] machine 0 machine
  | step {operations : List Operation} {first last : Machine} {n : Nat}
      (hrest : Calls operations first.step.1 n last) :
      Calls (.step :: operations) first (1 + n) last
  | run {operations : List Operation} {first middle last : Machine} {budget : Budget}
      {fuel n : Nat} {result : Except Failure Nat}
      (hrun : first.run fuel budget = (middle, some result))
      (hrest : Calls operations middle n last) :
      Calls (.run budget :: operations) first (first.callsOfRun fuel budget + n) last

/-- A session in which nothing is written from outside is a number of steps. -/
theorem Calls.of_performsAll {operations : List Operation}
    (hsession : PerformsAll operations first last)
    (hcalls : ∀ operation ∈ operations, operation = .step ∨ ∃ budget, operation = .run budget) :
    ∃ n, Calls operations first n last := by
  induction hsession with
  | nil machine => exact ⟨0, .nil machine⟩
  | cons hperforms _ ih =>
    obtain ⟨hfirst, hothers⟩ := List.forall_mem_cons.mp hcalls
    obtain ⟨n, hrest⟩ := ih hothers
    cases hperforms with
    | step => exact ⟨_, .step hrest⟩
    | run hrun => exact ⟨_, .run hrun hrest⟩
    | setTrace => rcases hfirst with heq | ⟨_, heq⟩ <;> cases heq
    | setAcc => rcases hfirst with heq | ⟨_, heq⟩ <;> cases heq
    | setPc => rcases hfirst with heq | ⟨_, heq⟩ <;> cases heq
    | setRegisters => rcases hfirst with heq | ⟨_, heq⟩ <;> cases heq

theorem Calls.last_eq {operations : List Operation} (h : Calls operations first n last) :
    last = first.afterSteps n := by
  induction h with
  | nil machine => rfl
  | step _ ih =>
    rw [afterSteps_add]
    exact ih
  | @run _ first middle _ budget fuel _ _ hrun _ ih =>
    have hmiddle : middle = first.afterSteps (first.callsOfRun fuel budget) := by
      rw [← run_fst_eq, hrun]
    rw [afterSteps_add, ← hmiddle]
    exact ih

/-- A machine that agrees with another in the steps of its session makes the same session. -/
theorem Calls.of_agree {operations : List Operation} (h : Calls operations first n last)
    (hagree : Agree n first second) : Calls operations second n (second.afterSteps n) := by
  induction h generalizing second with
  | nil machine => exact .nil second
  | step _ ih =>
    rw [afterSteps_add]
    exact .step (ih hagree.behind)
  | @run _ first middle _ budget fuel n result hrun _ ih =>
    obtain ⟨hcalls, hresult⟩ := Agree.run (hagree.mono (Nat.le_add_right _ n))
    have hmiddle : middle = first.afterSteps (first.callsOfRun fuel budget) := by
      rw [← run_fst_eq, hrun]
    have hrun' : second.run fuel budget =
        (second.afterSteps (first.callsOfRun fuel budget), some result) := by
      refine Prod.ext ?_ ?_
      · rw [run_fst_eq, hcalls]
      · rw [hresult, hrun]
    have hrest := Calls.run hrun' (ih (hmiddle ▸ hagree.behind))
    rwa [hcalls, ← afterSteps_add] at hrest

end Accumulator.Machine
