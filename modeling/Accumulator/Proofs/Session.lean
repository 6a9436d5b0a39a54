import Accumulator.Machine.Run

/-!
What can be done to a machine from outside, one call or one write after the other. A call that fails
counts as done, whatever it left; a run counts once it has ended. `PerformsAll.preserves` is the
induction over a session, `runFrom_preserves` that over the steps of a run, `afterSteps_preserves`
that over steps taken one by one.
-/

set_option autoImplicit false
set_option relaxedAutoImplicit false

namespace Accumulator

/-- A call to a machine or a write into it. -/
inductive Operation where
  | step
  | run (budget : Budget)
  | setTrace (trace : Option TraceSink)
  | setAcc (value : Value)
  | setPc (value : Value)
  | setRegisters (r : List Value)
  deriving DecidableEq, Repr

namespace Machine

/-- What an operation can make of a machine. -/
inductive Performs : Operation → Machine → Machine → Prop
  | step (machine : Machine) : Performs .step machine machine.step.1
  | run {budget : Budget} {machine after : Machine} {fuel : Nat} {result : Except Failure Nat}
      (hrun : machine.run fuel budget = (after, some result)) :
      Performs (.run budget) machine after
  | setTrace (machine : Machine) (trace : Option TraceSink) :
      Performs (.setTrace trace) machine { machine with trace }
  | setAcc (machine : Machine) (value : Value) :
      Performs (.setAcc value) machine (machine.setAcc value)
  | setPc (machine : Machine) (value : Value) :
      Performs (.setPc value) machine
        { machine with registers := { machine.registers with pc := value } }
  | setRegisters (machine : Machine) (r : List Value) :
      Performs (.setRegisters r) machine
        { machine with registers := { machine.registers with r } }

/-- What a sequence of operations can make of a machine. -/
inductive PerformsAll : List Operation → Machine → Machine → Prop
  | nil (machine : Machine) : PerformsAll [] machine machine
  | cons {operation : Operation} {operations : List Operation} {first middle last : Machine}
      (hfirst : Performs operation first middle) (hrest : PerformsAll operations middle last) :
      PerformsAll (operation :: operations) first last

/-- The machine after so many calls to step, failures included. -/
def afterSteps (machine : Machine) : Nat → Machine
  | 0 => machine
  | n + 1 => (afterSteps machine n).step.1

variable {P : Machine → Prop}

theorem afterSteps_preserves (hstep : ∀ machine, P machine → P machine.step.1) (machine : Machine)
    (hmachine : P machine) (n : Nat) : P (machine.afterSteps n) := by
  induction n with
  | zero => exact hmachine
  | succ n ih => exact hstep _ ih

/-- How a run stands after a step, given the number of steps it took and the result of the last. -/
def verdict (budget : Budget) (taken : Nat) : Except Failure Bool → Option (Except Failure Nat)
  | .error failure => some (.error failure)
  | .ok false => some (.ok taken)
  | .ok true => (budget.failure? taken).map .error

theorem exists_verdict {result : Except Failure Bool} (h : result ≠ .ok true) (budget : Budget)
    (taken : Nat) : ∃ ended, verdict budget taken result = some ended := by
  cases result with
  | error failure => exact ⟨_, rfl⟩
  | ok progressed =>
    cases progressed with
    | false => exact ⟨_, rfl⟩
    | true => contradiction

theorem runStep_eq (machine : Machine) (budget : Budget) (start : Nat) :
    machine.runStep budget start =
      (machine.step.1, verdict budget (machine.step.1.steps - start) machine.step.2) := by
  unfold runStep
  rcases machine.step with ⟨after, _ | _ | _⟩ <;> rfl

theorem runStep_fst (machine : Machine) (budget : Budget) (start : Nat) :
    (machine.runStep budget start).1 = machine.step.1 := by
  rw [runStep_eq]

/-- A run ends with its first step or goes on behind it. -/
theorem runFrom_succ (budget : Budget) (start fuel : Nat) (machine : Machine) :
    runFrom budget start (fuel + 1) machine =
      match verdict budget (machine.step.1.steps - start) machine.step.2 with
      | none => runFrom budget start fuel machine.step.1
      | some result => (machine.step.1, some result) := by
  rw [runFrom, runStep_eq]
  cases verdict budget (machine.step.1.steps - start) machine.step.2 <;> rfl

/-- Steps may be counted from the first or from the second. -/
theorem afterSteps_succ (machine : Machine) (n : Nat) :
    machine.afterSteps (n + 1) = machine.step.1.afterSteps n := by
  induction n with
  | zero => rfl
  | succ n ih => rw [afterSteps, ih, afterSteps]

theorem afterSteps_add (machine : Machine) (m n : Nat) :
    machine.afterSteps (m + n) = (machine.afterSteps m).afterSteps n := by
  induction n with
  | zero => rfl
  | succ n ih => rw [← Nat.add_assoc, afterSteps, ih, afterSteps]

/-- What every step preserves, a run preserves. -/
theorem runFrom_preserves (hstep : ∀ machine, P machine → P machine.step.1) (budget : Budget)
    (start fuel : Nat) (machine : Machine) (hmachine : P machine) :
    P (runFrom budget start fuel machine).1 := by
  induction fuel generalizing machine with
  | zero => exact hmachine
  | succ fuel ih =>
    have hafter : P (machine.runStep budget start).1 := by
      rw [runStep_fst]
      exact hstep machine hmachine
    rw [runFrom]
    split
    · rename_i after hresult
      rw [hresult] at hafter
      exact ih after hafter
    · exact hafter

section

variable {R : Machine → Machine → Prop}

theorem afterSteps_lockstep (hstep : ∀ first second, R first second → R first.step.1 second.step.1)
    {first second : Machine} (h : R first second) (n : Nat) :
    R (first.afterSteps n) (second.afterSteps n) := by
  induction n with
  | zero => exact h
  | succ n ih => exact hstep _ _ ih

/-- Machines whose steps go alike make runs that go alike. -/
theorem runFrom_lockstep
    (hstep : ∀ first second, R first second →
      R first.step.1 second.step.1 ∧ second.step.2 = first.step.2)
    (hsteps : ∀ first second, R first second → second.steps = first.steps)
    (budget : Budget) (begun fuel : Nat) {first second : Machine} (h : R first second) :
    R (runFrom budget begun fuel first).1 (runFrom budget begun fuel second).1 ∧
      (runFrom budget begun fuel second).2 = (runFrom budget begun fuel first).2 := by
  induction fuel generalizing first second with
  | zero => exact ⟨h, rfl⟩
  | succ fuel ih =>
    obtain ⟨hnext, hresult⟩ := hstep first second h
    rw [runFrom_succ, runFrom_succ, hresult, hsteps _ _ hnext]
    cases verdict budget (first.step.1.steps - begun) first.step.2 with
    | none => exact ih hnext
    | some ended => exact ⟨hnext, rfl⟩

end

/-- What each operation of a session preserves, the session preserves. -/
theorem PerformsAll.preserves {operations : List Operation} {first last : Machine}
    (hsession : PerformsAll operations first last)
    (hpreserves : ∀ operation ∈ operations, ∀ before after, Performs operation before after →
      P before → P after)
    (hfirst : P first) : P last := by
  induction hsession with
  | nil machine => exact hfirst
  | cons hperforms _ ih =>
    refine ih ?_ (hpreserves _ List.mem_cons_self _ _ hperforms hfirst)
    intro operation hmem
    exact hpreserves operation (List.mem_cons_of_mem _ hmem)

end Machine

end Accumulator
