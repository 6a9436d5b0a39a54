import Accumulator.Command.Run
import Accumulator.Proofs.Execution

/-!
What the exit code of a run tells. Once its settings are loaded, a command line comes to an
execution, and each way for this to end has a code (`run_eq_map_execute`): one for a machine that
has halted, one for a program that was rejected, one for a fault, one for want of a source, and one
for all else. Settings that cannot be loaded break the command off, with the code of a rejection.
-/

set_option autoImplicit false
set_option relaxedAutoImplicit false

namespace Accumulator

namespace Machine

variable {machine after : Machine} {failure : Failure} {displacement : Int}

/-! ### Failures of machines that have halted -/

/-- How a trace fails at a machine: there is no snapshot to deliver, or nothing takes it. -/
inductive TraceFailure (machine : Machine) (sink : TraceSink) : Failure → Prop
  | overlong {cause : Numeral.Overlong} (h : machine.snapshot = .error cause) :
      TraceFailure machine sink (.overlong cause)
  | broken (h : sink = .failing) : TraceFailure machine sink .brokenTrace

theorem deliver_error (h : machine.deliver.2 = .error failure) :
    machine.deliver.1 = machine ∧
      ∃ sink, machine.trace = some sink ∧ TraceFailure machine sink failure := by
  unfold deliver at h ⊢
  cases htrace : machine.trace with
  | none =>
    rw [htrace] at h
    contradiction
  | some sink =>
    simp only [htrace] at h ⊢
    cases hsnapshot : machine.snapshot with
    | error cause =>
      simp only [hsnapshot] at h
      cases h
      exact ⟨rfl, sink, rfl, .overlong hsnapshot⟩
    | ok text =>
      simp only [hsnapshot] at h
      cases sink with
      | collection => contradiction
      | log => contradiction
      | failing =>
        cases h
        exact ⟨rfl, .failing, rfl, .broken rfl⟩

/-- A step that halts the machine and fails all the same fails by its trace. -/
theorem step_failure_of_halted (hrunning : machine.halted = false)
    (hhalted : machine.step.1.halted = true) (h : machine.step.2 = .error failure) :
    ∃ sink, machine.trace = some sink ∧ TraceFailure machine.step.1 sink failure := by
  have hframe := machine.frame_attempt
  have htrace := machine.trace_step
  rcases machine.step_cases with ⟨-, hstep⟩ | ⟨between, cause, -, hattempt, hstep⟩ |
    ⟨between, displacement, -, -, hstep⟩
  · rw [hstep, hrunning] at hhalted
    contradiction
  · rw [hattempt] at hframe
    rw [hstep, hframe.halted, hrunning] at hhalted
    contradiction
  · rw [hstep] at h htrace ⊢
    unfold commit at h htrace ⊢
    rcases hdelivered : (between.advance displacement).deliver with ⟨traced, cause | _⟩
    · rw [hdelivered] at h htrace
      cases h
      obtain ⟨hsame, hsink⟩ := deliver_error (congrArg Prod.snd hdelivered)
      rw [hdelivered] at hsame
      simp only at hsame htrace
      rw [← htrace, hsame]
      exact hsink
    · rw [hdelivered] at h
      contradiction

/-- A run that fails leaves the machine running, but for a step that halted it and could not be
traced. -/
theorem run_failure_of_halted {budget : Budget} {fuel : Nat} (hrunning : machine.halted = false)
    (hrun : machine.run fuel budget = (after, some (.error failure)))
    (hhalted : after.halted = true) :
    ∃ sink, machine.trace = some sink ∧ TraceFailure after sink failure := by
  obtain ⟨n, -, hgoing, hended, rfl⟩ := (runFrom_eq_some_iff fuel machine).mp hrun
  have hstill := ((progresses_of_going hgoing).counted hrunning).2
  have htrace : (machine.afterSteps n).trace = machine.trace :=
    afterSteps_preserves (fun before hbefore ↦ before.trace_step.trans hbefore) machine rfl n
  rcases (verdict_eq_error_iff _ _ _).mp hended with hstep | ⟨hstep, -⟩
  · rw [← htrace]
    exact step_failure_of_halted hstill hhalted hstep
  · have hmoved := (step_of_ok hstill hstep).2
    rw [afterSteps, hmoved] at hhalted
    contradiction

theorem failure?_ne_interrupt (budget : Budget) (taken : Nat) :
    budget.failure? taken ≠ some .interrupt := by
  unfold Budget.failure?
  split
  · simp
  · simp
  · split
    · exact fun heq ↦ Failure.ofFault_ne_interrupt _ (Option.some.inj heq)
    · simp

/-- A run of an uninterrupted machine is not interrupted. -/
theorem run_ne_interrupt {budget : Budget} {fuel : Nat}
    (huninterrupted : machine.input.interrupts = false) :
    machine.run fuel budget ≠ (after, some (.error .interrupt)) := by
  intro hrun
  obtain ⟨n, -, -, hended, -⟩ := (runFrom_eq_some_iff fuel machine).mp hrun
  have hstill : (machine.afterSteps n).input.interrupts = false :=
    afterSteps_preserves (fun before hbefore ↦ before.interrupts_step.trans hbefore) machine
      huninterrupted n
  rcases (verdict_eq_error_iff _ _ _).mp hended with hstep | ⟨-, hfailure⟩
  · exact step_ne_interrupt hstill hstep
  · exact failure?_ne_interrupt _ _ hfailure

end Machine

namespace Command

variable {files : Files} {input : TokenReader} {line : List String} {options : RunOptions}
  {settings : Settings} {fuel : Nat} {outcome : Outcome} {report : Report}

/-! ### Reports of executions -/

/-- The exit code of each way for an execution to end. -/
def exitCodeOf : Outcome → Nat
  | .refused .noSource => usageCode
  | .refused (.rejected _) => ExitCode.rejected.toNat
  | .refused _ => ExitCode.general.toNat
  | .stopped _ (.fault _) => ExitCode.fault.toNat
  | .stopped _ .interrupt => ExitCode.interrupted.toNat
  | .stopped _ _ => ExitCode.general.toNat
  | .finished .. => ExitCode.halted.toNat

theorem refusalReport_eq (threshold : Level) (log : List LogRecord) (refusal : Refusal) :
    (refusalReport threshold log refusal).exitCode = exitCodeOf (.refused refusal) ∧
      (refusalReport threshold log refusal).uncaught = none := by
  cases refusal <;> exact ⟨rfl, rfl⟩

theorem Session.finish_error (session : Session) (machine : Machine) (failure : Failure) :
    (session.finish machine (.error failure)).exitCode = exitCodeOf (.stopped machine failure) ∧
      (session.finish machine (.error failure)).uncaught = none := by
  cases failure <;> exact ⟨rfl, rfl⟩

/-- A command line whose settings are loaded comes to their execution, the standard input and output
being the console, and tells by the exit code how that ended. -/
theorem run_eq_map_execute (hparse : RunOptions.parse files line = .ok options)
    (hsettings : options.settings files = .ok settings) (input : TokenReader) (fuel : Nat) :
    (run fuel files input line).map (fun report ↦ (report.exitCode, report.uncaught)) =
      (settings.execute fuel files input {}).map fun outcome ↦ (exitCodeOf outcome, none) := by
  unfold run begin Settings.execute Settings.executeAt
  simp only [hparse, hsettings]
  cases settings.machine files input {} with
  | error refusal => simp only [Option.map_some, refusalReport_eq]
  | ok machine =>
    simp only
    rcases machine.run fuel settings.budget with ⟨after, _ | failure | steps⟩
    · rfl
    · simp only [Option.map_some, Session.finish_error]
    · rfl

/-! ### What exit codes tell -/

/-- An outcome that is neither an end nor one of the failures with a code of its own. -/
inductive IsOther : Outcome → Prop
  | unreadable (path : Path) (error : ReadError) : IsOther (.refused (.unreadable path error))
  | failed (failure : Failure) : IsOther (.refused (.failed failure))
  | stopped (machine : Machine) {failure : Failure} (hfault : ∀ fault, failure ≠ .fault fault)
      (hinterrupt : failure ≠ .interrupt) : IsOther (.stopped machine failure)

theorem exitCodeOf_eq_zero_iff (outcome : Outcome) :
    exitCodeOf outcome = 0 ↔ ∃ machine steps, outcome = .finished machine steps := by
  unfold exitCodeOf
  split <;> simp [ExitCode.toNat, usageCode]

theorem exitCodeOf_eq_one_iff (outcome : Outcome) :
    exitCodeOf outcome = 1 ↔ ∃ fault, outcome = .refused (.rejected fault) := by
  unfold exitCodeOf
  split <;> simp_all [ExitCode.toNat, usageCode]

theorem exitCodeOf_eq_two_iff (outcome : Outcome) :
    exitCodeOf outcome = 2 ↔ outcome = .refused .noSource := by
  unfold exitCodeOf
  split <;> simp_all [ExitCode.toNat, usageCode]

theorem exitCodeOf_eq_three_iff (outcome : Outcome) :
    exitCodeOf outcome = 3 ↔ ∃ machine, outcome = .stopped machine .interrupt := by
  unfold exitCodeOf
  split <;> simp_all [ExitCode.toNat, usageCode]

theorem exitCodeOf_eq_four_iff (outcome : Outcome) :
    exitCodeOf outcome = 4 ↔ ∃ machine fault, outcome = .stopped machine (.fault fault) := by
  unfold exitCodeOf
  split <;> simp_all [ExitCode.toNat, usageCode]

theorem exitCodeOf_eq_hundred_iff (outcome : Outcome) :
    exitCodeOf outcome = 100 ↔ IsOther outcome := by
  constructor
  · intro hcode
    cases outcome with
    | refused refusal =>
      cases refusal with
      | noSource => contradiction
      | rejected fault => cases hcode
      | unreadable path error => exact .unreadable path error
      | failed failure => exact .failed failure
    | stopped machine failure =>
      refine .stopped machine ?_ ?_
      · rintro fault rfl
        cases hcode
      · rintro rfl
        cases hcode
    | finished machine steps => contradiction
  · intro hother
    cases hother with
    | unreadable path error => rfl
    | failed failure => rfl
    | @stopped machine failure hfault hinterrupt =>
      cases failure with
      | fault fault => exact absurd rfl (hfault fault)
      | interrupt => exact absurd rfl hinterrupt
      | _ => rfl

/-- A report that tells by its exit code how an execution under settings ended. -/
structure Tells (settings : Settings) (outcome : Outcome) (report : Report) : Prop where
  handled : report.uncaught = none
  finished : report.exitCode = 0 ↔ ∃ machine steps, outcome = .finished machine steps
  rejected : report.exitCode = 1 ↔ ∃ fault, outcome = .refused (.rejected fault)
  noSource : report.exitCode = 2 ↔ settings.source = none
  interrupted : report.exitCode = 3 ↔ ∃ machine, outcome = .stopped machine .interrupt
  fault : report.exitCode = 4 ↔ ∃ machine fault, outcome = .stopped machine (.fault fault)
  other : report.exitCode = 100 ↔ IsOther outcome

theorem tells_of_execute (hexecute : settings.execute fuel files input {} = some outcome)
    (hcode : report.exitCode = exitCodeOf outcome) (huncaught : report.uncaught = none) :
    Tells settings outcome report where
  handled := huncaught
  finished := by rw [hcode, exitCodeOf_eq_zero_iff]
  rejected := by rw [hcode, exitCodeOf_eq_one_iff]
  noSource := by
    rw [hcode, exitCodeOf_eq_two_iff, ← Settings.refuses_noSource_iff,
      ← Settings.execute_eq_refused_iff, hexecute, Option.some.injEq]
  interrupted := by rw [hcode, exitCodeOf_eq_three_iff]
  fault := by rw [hcode, exitCodeOf_eq_four_iff]
  other := by rw [hcode, exitCodeOf_eq_hundred_iff]

theorem exists_report (hparse : RunOptions.parse files line = .ok options)
    (hsettings : options.settings files = .ok settings)
    (hexecute : settings.execute fuel files input {} = some outcome) :
    ∃ report, run fuel files input line = some report ∧ Tells settings outcome report := by
  have hrun := run_eq_map_execute hparse hsettings input fuel
  rw [hexecute, Option.map_some, Option.map_eq_some_iff] at hrun
  obtain ⟨report, hreport, heq⟩ := hrun
  obtain ⟨hcode, huncaught⟩ := Prod.mk.inj heq
  exact ⟨report, hreport, tells_of_execute hexecute hcode huncaught⟩

/-- A machine that has halted and was stopped all the same could not be traced, for want of a
snapshot. -/
theorem traced_of_stopped {machine : Machine} {failure : Failure}
    (hexecute : settings.execute fuel files input {} = some (.stopped machine failure))
    (hhalted : machine.halted = true) :
    settings.isTraced = true ∧
      ∃ cause, machine.snapshot = .error cause ∧ failure = .overlong cause := by
  obtain ⟨program, hrun⟩ := Settings.startOn_run_of_stopped hexecute
  obtain ⟨sink, hsink, hfailure⟩ := Machine.run_failure_of_halted rfl hrun hhalted
  have htrace : (if settings.isTraced then some TraceSink.log else none) = some sink := hsink
  by_cases htraced : settings.isTraced = true
  · rw [if_pos htraced] at htrace
    cases htrace
    cases hfailure with
    | overlong hsnapshot => exact ⟨htraced, _, hsnapshot, rfl⟩
    | broken hfailing => contradiction
  · rw [if_neg htraced] at htrace
    contradiction

/-- If the settings of a command line can be loaded, its exit code is 0 exactly if the machine
finishes, 1 if the program is rejected, 4 if a fault stops the machine, 2 if there is no source and
100 for all else; it is never that of an interrupt, and no error goes uncaught. What finishes has
halted; a machine that has halted and does not finish is traced and has no snapshot. Settings that
cannot be loaded have the exit code 1 as well, their error being uncaught. -/
theorem exit_codes_tell_outcomes_apart (files : Files) (input : TokenReader) (line : List String)
    (options : RunOptions) (hparse : RunOptions.parse files line = .ok options)
    (huninterrupted : input.interrupts = false) :
    (∀ settings, options.settings files = .ok settings → ∀ fuel,
      (run fuel files input line = none ↔ settings.execute fuel files input {} = none) ∧
      ∀ outcome, settings.execute fuel files input {} = some outcome →
        (∃ report, run fuel files input line = some report ∧ Tells settings outcome report) ∧
        (∀ fault, outcome = .refused (.rejected fault) → fault.isRejection = true) ∧
        (∀ machine fault, outcome = .stopped machine (.fault fault) →
          Machine.RunFault settings.budget fault) ∧
        (∀ machine, outcome ≠ .stopped machine .interrupt) ∧
        (∀ machine steps, outcome = .finished machine steps →
          machine.halted = true ∧ machine.current? = some .halt) ∧
        ∀ machine failure, outcome = .stopped machine failure → machine.halted = true →
          settings.isTraced = true ∧
            ∃ cause, machine.snapshot = .error cause ∧ failure = .overlong cause) ∧
    ∀ error, options.settings files = .error error → ∀ fuel,
      ∃ report, run fuel files input line = some report ∧ report.exitCode = 1 ∧
        report.uncaught = some (.settings error) := by
  constructor
  · intro settings hsettings fuel
    constructor
    · have hrun := run_eq_map_execute hparse hsettings input fuel
      rw [← Option.map_eq_none_iff, hrun, Option.map_eq_none_iff]
    · intro outcome hexecute
      refine ⟨exists_report hparse hsettings hexecute, ?_, ?_, ?_, ?_, ?_⟩
      · rintro fault rfl
        have hrefuses := (Settings.execute_eq_refused_iff _).mp hexecute
        obtain ⟨_, _, -, -, hfault⟩ := (Settings.refuses_rejected_iff fault).mp hrefuses
        exact hfault.isRejection
      · rintro machine fault rfl
        exact Settings.runFault_of_stopped hexecute
      · rintro machine rfl
        obtain ⟨program, hrun⟩ := Settings.startOn_run_of_stopped hexecute
        exact Machine.run_ne_interrupt huninterrupted hrun
      · rintro machine steps rfl
        obtain ⟨hhalted, hcurrent, -⟩ := Settings.halted_of_finished hexecute
        exact ⟨hhalted, hcurrent⟩
      · rintro machine failure rfl
        exact traced_of_stopped hexecute
  · intro error hsettings fuel
    refine ⟨.ofCrash (.settings error) [], ?_, rfl, rfl⟩
    unfold run begin
    simp only [hparse, hsettings]

theorem eq_ok_of_toOption {ε α : Type} {result : Except ε α} {value : α}
    (h : result.toOption = some value) : result = .ok value := by
  cases result with
  | error error => contradiction
  | ok other => exact congrArg Except.ok (Option.some.inj h)

theorem exists_error_of_toOption {ε α : Type} {result : Except ε α} (h : result.toOption = none) :
    ∃ error, result = .error error := by
  cases result with
  | error error => exact ⟨error, rfl⟩
  | ok value => contradiction

/-- A halt instruction alone exits with 0, an unknown setting as if the program were rejected. -/
theorem exit_codes_of_halt_and_of_unknown_setting :
    let files : Files :=
      { bytes := fun path ↦
          .ok (if path = .ofText "halt" then "hlt" else "[machine]\nbogus = 1\n").toUTF8.toList }
    (∃ report, run 1 files {} ["halt"] = some report ∧ report.exitCode = 0) ∧
      ∃ report error, run 1 files {} ["-c", "c.toml"] = some report ∧ report.exitCode = 1 ∧
        report.uncaught = some (.settings error) := by
  intro files
  constructor
  · have hends : ((RunOptions.parse files ["halt"]).toOption.bind fun options ↦
        (options.settings files).toOption.bind fun settings ↦
          (settings.execute 1 files {} {}).map exitCodeOf) = some 0 := by
      decide +kernel
    obtain ⟨options, hoptions, hends⟩ := Option.bind_eq_some_iff.mp hends
    obtain ⟨settings, hsettings, hends⟩ := Option.bind_eq_some_iff.mp hends
    obtain ⟨outcome, hexecute, hcode⟩ := Option.map_eq_some_iff.mp hends
    obtain ⟨hloaded, -⟩ :=
      exit_codes_tell_outcomes_apart files {} _ options (eq_ok_of_toOption hoptions) rfl
    obtain ⟨⟨report, hreport, htells⟩, -⟩ :=
      (hloaded settings (eq_ok_of_toOption hsettings) 1).2 outcome hexecute
    exact ⟨report, hreport, htells.finished.mpr ((exitCodeOf_eq_zero_iff outcome).mp hcode)⟩
  · have hfaulty : ((RunOptions.parse files ["-c", "c.toml"]).toOption.map fun options ↦
        (options.settings files).toOption.isNone) = some true := by
      decide +kernel
    obtain ⟨options, hoptions, hnone⟩ := Option.map_eq_some_iff.mp hfaulty
    obtain ⟨error, herror⟩ := exists_error_of_toOption (Option.isNone_iff_eq_none.mp hnone)
    obtain ⟨-, hbroken⟩ :=
      exit_codes_tell_outcomes_apart files {} _ options (eq_ok_of_toOption hoptions) rfl
    obtain ⟨report, hreport, hcode, huncaught⟩ := hbroken error herror 1
    exact ⟨report, error, hreport, hcode, huncaught⟩

end Command

end Accumulator
