import Accumulator.Proofs.Rendering
import Accumulator.Proofs.Session
import Accumulator.Proofs.Step

/-!
Tracing does not interfere. Everything but the trace and the journal (`bare`) is the same after a
step whatever the trace does, be it that it fails or that a snapshot has no text (`bare_step`).
A run that collects snapshots goes as one without a trace and collects the snapshots of the states
that its steps lead to (`runFrom_of_renders`), up to the first state that has no snapshot
(`runFrom_of_not_renders`).
-/

set_option autoImplicit false
set_option relaxedAutoImplicit false

namespace Accumulator

/-- The snapshot in an event of a trace that collects. -/
def Event.collected? : Event → Option String
  | .collected snapshot => some snapshot
  | _ => none

namespace Machine

variable {machine plain : Machine} {failure : Failure} {displacement : Int}

/-- The machine without its trace and without what it reported. -/
def bare (machine : Machine) : Machine := machine.watched none #[]

/-- The snapshots that a machine has collected. -/
def collected (machine : Machine) : List String :=
  machine.journal.toList.filterMap Event.collected?

/-! ### One step -/

theorem bare_attempt (machine : Machine) :
    machine.bare.attempt = (machine.attempt.1.bare, machine.attempt.2) :=
  machine.attempt_watched none #[]

theorem bare_advance (machine : Machine) (displacement : Int) :
    (machine.advance displacement).bare = (machine.moved displacement).bare := by
  obtain ⟨journal, hadvance⟩ := machine.exists_journal_advance displacement
  rw [hadvance]
  rfl

theorem bare_commit (machine : Machine) (displacement : Int) :
    (machine.commit displacement).1.bare = (machine.moved displacement).bare := by
  obtain ⟨journal, hcommit⟩ := machine.exists_journal_commit displacement
  rw [hcommit]
  rfl

theorem bare_moved (machine : Machine) (displacement : Int) :
    (machine.moved displacement).bare = machine.bare.moved displacement := rfl

theorem snapshot_eq_of_bare (h : machine.bare = plain.bare) :
    machine.snapshot = plain.snapshot := by
  have hbare : machine.bare.snapshot = plain.bare.snapshot := by rw [h]
  exact hbare

theorem halted_eq_of_bare (h : machine.bare = plain.bare) : machine.halted = plain.halted := by
  have hbare : machine.bare.halted = plain.bare.halted := by rw [h]
  exact hbare

theorem steps_eq_of_bare (h : machine.bare = plain.bare) : machine.steps = plain.steps := by
  have hbare : machine.bare.steps = plain.bare.steps := by rw [h]
  exact hbare

/-- What a step does to a machine, its reports apart, does not depend on the trace. -/
theorem bare_step (machine : Machine) : machine.step.1.bare = machine.bare.step.1.bare := by
  have hbare := machine.bare_attempt
  rcases machine.step_cases with ⟨hhalted, hstep⟩ | ⟨after, failure, hrunning, hattempt, hstep⟩ |
    ⟨after, displacement, hrunning, hattempt, hstep⟩
  · have hidle : machine.bare.step = (machine.bare, .ok false) := step_of_halted hhalted
    rw [hstep, hidle]
    rfl
  · have hrunning' : machine.bare.halted = false := hrunning
    rw [hattempt] at hbare
    rw [hstep, step_of_running hrunning', hbare]
    rfl
  · have hrunning' : machine.bare.halted = false := hrunning
    rw [hattempt] at hbare
    rw [hstep, step_of_running hrunning', hbare, bare_commit, bare_commit]
    rfl

theorem bare_step_congr (h : machine.bare = plain.bare) :
    machine.step.1.bare = plain.step.1.bare := by
  rw [bare_step, h, ← bare_step]

/-- One step after the other, each under the trace that the schedule has for it. Steps that fail
count. -/
def stepsUnder (machine : Machine) (schedule : List (Option TraceSink)) : Machine :=
  schedule.foldl (fun machine trace ↦ { machine with trace }.step.1) machine

theorem stepsUnder_cons (machine : Machine) (trace : Option TraceSink)
    (schedule : List (Option TraceSink)) :
    machine.stepsUnder (trace :: schedule) =
      ({ machine with trace }.step.1).stepsUnder schedule := rfl

theorem bare_stepsUnder {first second : List (Option TraceSink)}
    (hlength : first.length = second.length) (h : machine.bare = plain.bare) :
    (machine.stepsUnder first).bare = (plain.stepsUnder second).bare := by
  induction first generalizing machine plain second with
  | nil =>
    cases second with
    | nil => exact h
    | cons trace second => contradiction
  | cons trace first ih =>
    cases second with
    | nil => contradiction
    | cons other second =>
      rw [List.length_cons, List.length_cons, Nat.add_right_cancel_iff] at hlength
      have hset : ({ machine with trace := trace } : Machine).bare =
          ({ plain with trace := other } : Machine).bare := h
      rw [stepsUnder_cons, stepsUnder_cons]
      exact ih hlength (bare_step_congr hset)

/-! ### One step of a machine that collects -/

theorem collected_advance (machine : Machine) (displacement : Int) :
    (machine.advance displacement).collected = machine.collected := by
  simp only [advance]
  split
  · simp [collected, report, Event.collected?]
  · rfl

/-- The commitment of a machine that collects: one more snapshot, or none if it has no text. -/
theorem commit_of_collecting (htrace : machine.trace = some .collection) (displacement : Int) :
    (∀ text, (machine.moved displacement).snapshot = .ok text →
      (machine.commit displacement).2 = .ok !(machine.moved displacement).halted ∧
        (machine.commit displacement).1.collected = machine.collected ++ [text]) ∧
    ∀ cause, (machine.moved displacement).snapshot = .error cause →
      (machine.commit displacement).2 = .error (.overlong cause) ∧
        (machine.commit displacement).1.collected = machine.collected := by
  obtain ⟨journal, hadvance⟩ := machine.exists_journal_advance displacement
  have hcollected := machine.collected_advance displacement
  have hsink : (machine.advance displacement).trace = some .collection := by
    rw [hadvance]
    exact htrace
  have hbare := machine.bare_advance displacement
  have hsnapshot := snapshot_eq_of_bare hbare
  have hhalted := halted_eq_of_bare hbare
  constructor
  · intro text htext
    unfold commit deliver
    rw [hsink, hsnapshot, htext, hhalted]
    refine ⟨rfl, ?_⟩
    rw [← hcollected]
    simp [collected, report, Event.collected?]
  · intro cause hcause
    unfold commit deliver
    rw [hsink, hsnapshot, hcause]
    exact ⟨rfl, hcollected⟩

/-- Whether a step counts does not depend on the trace. If it does, a machine that collects has one
more snapshot, which is that of the machine without a trace, or fails for want of its text. -/
theorem step_of_collecting (htrace : machine.trace = some .collection)
    (hplain : plain.trace = none) (hbare : machine.bare = plain.bare) :
    (plain.step.1.steps = plain.steps ∧ plain.step.2 ≠ .ok true ∧
        machine.step.2 = plain.step.2 ∧ machine.step.1.collected = machine.collected) ∨
      (plain.step.1.steps = plain.steps + 1 ∧
        (∀ text, plain.step.1.snapshot = .ok text →
          machine.step.2 = plain.step.2 ∧
            machine.step.1.collected = machine.collected ++ [text]) ∧
        ∀ cause, plain.step.1.snapshot = .error cause →
          machine.step.2 = .error (.overlong cause) ∧
            machine.step.1.collected = machine.collected) := by
  have hattempts : (machine.attempt.1.bare, machine.attempt.2) =
      (plain.attempt.1.bare, plain.attempt.2) := by
    rw [← bare_attempt, ← bare_attempt, hbare]
  obtain ⟨hafter, hresult⟩ := Prod.ext_iff.mp hattempts
  dsimp only at hafter hresult
  have hframe := machine.frame_attempt
  have hframe' := plain.frame_attempt
  have hhalted := halted_eq_of_bare hbare
  rcases plain.step_cases with ⟨hidle, hstep⟩ | ⟨after, failure, hrunning, hattempt, hstep⟩ |
    ⟨after, displacement, hrunning, hattempt, hstep⟩
  · left
    rw [hstep, step_of_halted (hhalted.trans hidle)]
    exact ⟨rfl, by simp, rfl, rfl⟩
  · left
    rw [hattempt] at hresult hframe'
    have hmachine : machine.step = (machine.attempt.1, .error failure) := by
      rw [step_of_running (hhalted.trans hrunning), ← Prod.eta machine.attempt, hresult]
    rw [hstep, hmachine]
    refine ⟨hframe'.steps, by simp, rfl, ?_⟩
    rw [collected, hframe.journal, collected]
  · right
    rw [hattempt] at hresult hframe' hafter
    have hmachine : machine.step = machine.attempt.1.commit displacement := by
      rw [step_of_running (hhalted.trans hrunning), ← Prod.eta machine.attempt, hresult]
    have hmoved : plain.step.1.bare = (machine.attempt.1.moved displacement).bare := by
      rw [hstep, bare_commit, bare_moved, bare_moved, hafter]
    have hended : (after.advance displacement).halted =
        (machine.attempt.1.moved displacement).halted := by
      refine halted_eq_of_bare ?_
      rw [bare_advance, bare_moved, bare_moved, hafter]
    have hcollected : machine.attempt.1.collected = machine.collected := by
      rw [collected, hframe.journal, collected]
    obtain ⟨htexts, hcauses⟩ :=
      commit_of_collecting (hframe.trace.trans htrace) displacement
    rw [snapshot_eq_of_bare hmoved, hmachine, ← hcollected]
    refine ⟨?_, ?_, hcauses⟩
    · rw [hstep, commit_steps, hframe'.steps]
    · intro text htext
      rw [hstep, commit_of_untraced (hframe'.trace.trans hplain), hended]
      exact htexts text htext

/-! ### Runs of a machine that collects -/

theorem steps_le_runFrom (budget : Budget) (start fuel : Nat) (machine : Machine) :
    machine.steps ≤ (runFrom budget start fuel machine).1.steps :=
  runFrom_preserves (fun before hbefore ↦ Nat.le_trans hbefore before.steps_le_step) budget start
    fuel machine (Nat.le_refl _)

/-- The snapshots of the states that the next steps lead to. -/
def snapshots (machine : Machine) (n : Nat) : List (Except Numeral.Overlong String) :=
  (List.range n).map fun i ↦ (machine.afterSteps (i + 1)).snapshot

theorem snapshots_succ (machine : Machine) (n : Nat) :
    machine.snapshots (n + 1) = machine.step.1.snapshot :: machine.step.1.snapshots n := by
  unfold snapshots
  rw [List.range_succ_eq_map, List.map_cons, List.map_map]
  congr 1
  refine List.map_congr_left fun i _ ↦ ?_
  rw [Function.comp_apply, afterSteps_succ]

section

variable (budget : Budget) (start fuel : Nat)

/-- How many steps of a run count. -/
def counted (machine : Machine) : Nat :=
  (runFrom budget start fuel machine).1.steps - machine.steps

theorem counted_succ_of_ended {result : Except Failure Nat}
    (hended : verdict budget (plain.step.1.steps - start) plain.step.2 = some result) :
    counted budget start (fuel + 1) plain = plain.step.1.steps - plain.steps := by
  rw [counted, runFrom_succ, hended]

theorem counted_succ_of_going_on (hcounts : plain.step.1.steps = plain.steps + 1)
    (hgoing : verdict budget (plain.step.1.steps - start) plain.step.2 = none) :
    counted budget start (fuel + 1) plain = counted budget start fuel plain.step.1 + 1 := by
  have hle := steps_le_runFrom budget start fuel plain.step.1
  rw [counted, counted, runFrom_succ, hgoing]
  dsimp only
  omega

/-- As long as every state that is reached has a snapshot, a run that collects goes as one without
a trace, and collects these snapshots. -/
theorem runFrom_of_renders (htrace : machine.trace = some .collection)
    (hplain : plain.trace = none) (hbare : machine.bare = plain.bare)
    (hrenders : ∀ i < counted budget start fuel plain, (plain.afterSteps (i + 1)).Renders) :
    (runFrom budget start fuel machine).2 = (runFrom budget start fuel plain).2 ∧
      (runFrom budget start fuel machine).1.bare = (runFrom budget start fuel plain).1.bare ∧
      (runFrom budget start fuel machine).1.collected.map Except.ok =
        machine.collected.map Except.ok ++ plain.snapshots (counted budget start fuel plain) := by
  induction fuel generalizing machine plain with
  | zero =>
    refine ⟨rfl, hbare, ?_⟩
    simp [counted, runFrom, snapshots]
  | succ fuel ih =>
    have hafter := bare_step_congr hbare
    have hsteps := steps_eq_of_bare hafter
    rcases step_of_collecting htrace hplain hbare with ⟨hcounts, hstuck, hresult, hcollected⟩ |
      ⟨hcounts, htexts, -⟩
    · obtain ⟨ended, hended⟩ := exists_verdict hstuck budget (plain.step.1.steps - start)
      rw [counted_succ_of_ended budget start fuel hended, hcounts, runFrom_succ, runFrom_succ,
        hsteps, hresult, hended]
      refine ⟨rfl, hafter, ?_⟩
      simp [hcollected, snapshots]
    · cases hverdict : verdict budget (plain.step.1.steps - start) plain.step.2 with
      | some ended =>
        have hone : counted budget start (fuel + 1) plain = 1 := by
          rw [counted_succ_of_ended budget start fuel hverdict]
          omega
        rw [hone] at hrenders ⊢
        obtain ⟨text, htext⟩ : plain.step.1.Renders := hrenders 0 Nat.zero_lt_one
        obtain ⟨hresult, hcollected⟩ := htexts text htext
        rw [runFrom_succ, runFrom_succ, hsteps, hresult, hverdict, snapshots_succ]
        refine ⟨rfl, hafter, ?_⟩
        simp [hcollected, snapshots, htext]
      | none =>
        have hmore := counted_succ_of_going_on budget start fuel hcounts hverdict
        rw [hmore] at hrenders ⊢
        obtain ⟨text, htext⟩ : plain.step.1.Renders := hrenders 0 (Nat.succ_pos _)
        obtain ⟨hresult, hcollected⟩ := htexts text htext
        obtain ⟨hrun, hbares, hsnapshots⟩ := ih (machine.trace_step.trans htrace)
          (plain.trace_step.trans hplain) hafter fun i hi ↦ by
            rw [← afterSteps_succ]
            exact hrenders (i + 1) (Nat.succ_lt_succ hi)
        rw [runFrom_succ, runFrom_succ, hsteps, hresult, hverdict, snapshots_succ]
        refine ⟨hrun, hbares, ?_⟩
        rw [hsnapshots, hcollected, htext, List.map_append, List.append_assoc]
        rfl

/-- At the first counted step to a state without a snapshot, a run that collects fails. The step is
done by then. -/
theorem runFrom_of_not_renders (htrace : machine.trace = some .collection)
    (hplain : plain.trace = none) (hbare : machine.bare = plain.bare) {i : Nat}
    {cause : Numeral.Overlong} (hcounted : i < counted budget start fuel plain)
    (hrenders : ∀ j < i, (plain.afterSteps (j + 1)).Renders)
    (hcause : (plain.afterSteps (i + 1)).snapshot = .error cause) :
    (runFrom budget start fuel machine).2 = some (.error (.overlong cause)) ∧
      (runFrom budget start fuel machine).1.bare = (plain.afterSteps (i + 1)).bare ∧
      (runFrom budget start fuel machine).1.collected.map Except.ok =
        machine.collected.map Except.ok ++ plain.snapshots i ∧
      (plain.afterSteps (i + 1)).steps = plain.steps + (i + 1) := by
  induction fuel generalizing machine plain i with
  | zero => simp [counted, runFrom] at hcounted
  | succ fuel ih =>
    have hafter := bare_step_congr hbare
    have hsteps := steps_eq_of_bare hafter
    rcases step_of_collecting htrace hplain hbare with ⟨hcounts, hstuck, hresult, hcollected⟩ |
      ⟨hcounts, htexts, hcauses⟩
    · obtain ⟨ended, hended⟩ := exists_verdict hstuck budget (plain.step.1.steps - start)
      rw [counted_succ_of_ended budget start fuel hended, hcounts] at hcounted
      omega
    · cases i with
      | zero =>
        obtain ⟨hresult, hcollected⟩ := hcauses cause hcause
        rw [runFrom_succ, hresult]
        refine ⟨rfl, hafter, ?_, hcounts⟩
        simp [verdict, hcollected, snapshots]
      | succ i =>
        obtain ⟨text, htext⟩ : plain.step.1.Renders := hrenders 0 (Nat.succ_pos _)
        obtain ⟨hresult, hcollected⟩ := htexts text htext
        cases hverdict : verdict budget (plain.step.1.steps - start) plain.step.2 with
        | some ended =>
          rw [counted_succ_of_ended budget start fuel hverdict] at hcounted
          omega
        | none =>
          rw [counted_succ_of_going_on budget start fuel hcounts hverdict] at hcounted
          rw [afterSteps_succ] at hcause
          obtain ⟨hrun, hbares, hsnapshots, htaken⟩ := ih (machine.trace_step.trans htrace)
            (plain.trace_step.trans hplain) hafter (Nat.lt_of_succ_lt_succ hcounted)
            (fun j hj ↦ by
              rw [← afterSteps_succ]
              exact hrenders (j + 1) (Nat.succ_lt_succ hj))
            hcause
          rw [runFrom_succ, hsteps, hresult, hverdict, snapshots_succ, afterSteps_succ]
          refine ⟨hrun, hbares, ?_, ?_⟩
          · rw [hsnapshots, hcollected, htext, List.map_append, List.append_assoc]
            rfl
          · rw [htaken, hcounts]
            omega

end

/-- Whatever traces a machine is given between its steps, it is the same after each of them, its
reports apart. A run that collects snapshots ends like the run without a trace, in the same state
and with the snapshot of the state after each step that counts, if all of these have one. Otherwise
it fails at the first such step to a state that has none, and leaves the machine as after that
step. -/
theorem tracing_does_not_interfere (machine : Machine) :
    (∀ first second : List (Option TraceSink), first.length = second.length →
      (machine.stepsUnder first).bare = (machine.stepsUnder second).bare) ∧
    ∀ (fuel : Nat) (budget : Budget),
      let plain := machine.untraced
      let collecting := { machine with trace := some .collection }
      let taken := (plain.run fuel budget).1.steps - machine.steps
      ((∀ i < taken, (plain.afterSteps (i + 1)).Renders) →
        (collecting.run fuel budget).2 = (plain.run fuel budget).2 ∧
          (collecting.run fuel budget).1.bare = (plain.run fuel budget).1.bare ∧
          (collecting.run fuel budget).1.collected.map Except.ok =
            machine.collected.map Except.ok ++
              (List.range taken).map fun i ↦ (plain.afterSteps (i + 1)).snapshot) ∧
      ∀ i < taken, ∀ cause, (∀ j < i, (plain.afterSteps (j + 1)).Renders) →
        (plain.afterSteps (i + 1)).snapshot = .error cause →
          (collecting.run fuel budget).2 = some (.error (.overlong cause)) ∧
            (collecting.run fuel budget).1.bare = (plain.afterSteps (i + 1)).bare ∧
            (collecting.run fuel budget).1.steps = machine.steps + (i + 1) ∧
            (collecting.run fuel budget).1.collected.map Except.ok =
              machine.collected.map Except.ok ++
                (List.range i).map fun j ↦ (plain.afterSteps (j + 1)).snapshot := by
  constructor
  · intro first second hlength
    exact bare_stepsUnder hlength rfl
  · intro fuel budget plain collecting taken
    have hbare : collecting.bare = plain.bare := rfl
    constructor
    · intro hrenders
      exact runFrom_of_renders budget machine.steps fuel rfl rfl hbare hrenders
    · intro i hi cause hrenders hcause
      obtain ⟨hrun, hleft, hcollected, hsteps⟩ :=
        runFrom_of_not_renders budget machine.steps fuel rfl rfl hbare hi hrenders hcause
      exact ⟨hrun, hleft, (steps_eq_of_bare hleft).trans hsteps, hcollected⟩

/-- An addition and a halt are traced with two snapshots; with a register that has no text, the
addition is done and its snapshot fails. -/
theorem tracing_of_addition_and_halt :
    let program : Program :=
      ⟨#[.add (.int 0), .halt], [], rfl, by decide, Labels.targets_of_undefined? rfl⟩
    let small := start program { r := [.int 5] }
    let large := start program { r := [.int Numeral.bound] }
    (small.stepsUnder [some .failing, none]).bare =
        (small.stepsUnder [none, some .collection]).bare ∧
      (({ small with trace := some .collection } : Machine).run 2 .unlimited).2 = some (.ok 2) ∧
      (({ small with trace := some .collection } : Machine).run 2 .unlimited).1.collected.length
        = 2 ∧
      (∃ cause, (({ large with trace := some .collection } : Machine).run 2 .unlimited).2 =
        some (.error (.overlong cause))) ∧
      (({ large with trace := some .collection } : Machine).run 2 .unlimited).1.steps = 1 := by
  intro program small large
  have hshort (n : Int) (hn : n.natAbs < 10) : ∃ text, (Value.int n).text = .ok text :=
    ⟨_, (Numeral.text_eq_ok_iff _ _).mpr ⟨Numeral.lt_bound_of_lt_pow (k := 1) hn (by decide), rfl⟩⟩
  have hinstructions : ∀ instruction ∈ program.instructions.toList,
      ∃ text, instruction.text = .ok text := by
    intro instruction hmem
    rcases List.mem_pair.mp hmem with rfl | rfl
    · exact exists_bind_pure_iff.mpr (hshort 0 (by decide))
    · exact ⟨_, rfl⟩
  have hrenders : ∀ i < 2, (small.untraced.afterSteps (i + 1)).Renders := by
    intro i hi
    have hregisters : (small.untraced.afterSteps (i + 1)).registers =
        { r := [.int 5], acc := .int 5, pc := .int 1 } := by
      match i, hi with
      | 0, _ => rfl
      | 1, _ => rfl
    have hprogram : (small.untraced.afterSteps (i + 1)).program = program := by
      match i, hi with
      | 0, _ => rfl
      | 1, _ => rfl
    rw [renders_iff, hregisters, hprogram]
    refine ⟨⟨?_, hshort 5 (by decide), hshort 1 (by decide)⟩, hinstructions⟩
    exact List.forall_mem_singleton.mpr (hshort 5 (by decide))
  have hcause : ∃ cause, (large.untraced.afterSteps 1).snapshot = .error cause := by
    cases hsnapshot : (large.untraced.afterSteps 1).snapshot with
    | error cause => exact ⟨cause, rfl⟩
    | ok text =>
      obtain ⟨⟨hvalues, -⟩, -⟩ := (renders_iff _).mp ⟨text, hsnapshot⟩
      obtain ⟨shown, hshown⟩ := hvalues (.int Numeral.bound) List.mem_cons_self
      have hlt := ((Numeral.text_eq_ok_iff _ _).mp hshown).1
      rw [Int.natAbs_natCast] at hlt
      exact absurd hlt (Nat.lt_irrefl _)
  obtain ⟨cause, hcause⟩ := hcause
  obtain ⟨hsame, hruns⟩ := tracing_does_not_interfere small
  obtain ⟨hresult, -, hcollected⟩ := (hruns 2 .unlimited).1 hrenders
  obtain ⟨hfails, -, hsteps, -⟩ := ((tracing_does_not_interfere large).2 2 .unlimited).2 0
    (show 0 < 2 by decide) cause (fun j hj ↦ absurd hj (Nat.not_lt_zero j)) hcause
  refine ⟨hsame _ _ rfl, hresult, ?_, ⟨cause, hfails⟩, hsteps⟩
  have hlength := congrArg List.length hcollected
  rw [List.length_append, List.length_map, List.length_map, List.length_map,
    List.length_range] at hlength
  exact hlength

end Machine

end Accumulator
