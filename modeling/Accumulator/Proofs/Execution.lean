import Accumulator.Execution
import Accumulator.Proofs.Runs
import Accumulator.Proofs.Scanning

/-!
Executing a program under settings. Whether it is refused is up to the settings and the files alone,
and what is refused leaves the console as it was (`Settings.executeAt_eq_refused_iff`). Its fault, if
it has one, is never one of those that stop a machine (`RejectedFor.isRejection`,
`RunFault.isRejection_eq_false`). What finishes stands at a halt instruction (`Machine.run_of_ok`).
-/

set_option autoImplicit false
set_option relaxedAutoImplicit false

namespace Accumulator

open Assembly (SourceUnit assemble assemble_singleton)

/-! ### Faults of a program text -/

theorem Assembly.SourceUnit.assemble_failure {unit : SourceUnit} {failure : Failure}
    (h : unit.assemble = .error failure) :
    (∃ message line, failure = .fault (.syntaxError message line)) ∨
      ∃ cause, failure = .overlong cause := by
  rw [SourceUnit.assemble_eq_of_items] at h
  split at h
  · exact Or.inr ⟨_, (Except.error.inj h).symm⟩
  · split at h
    · exact Or.inl ⟨_, _, (Except.error.inj h).symm⟩
    · contradiction

theorem Program.ofList_fault {instructions : List Instruction} {fault : Fault}
    (h : ofList instructions = .error fault) :
    (∃ name first second, fault = .duplicateLabel name first second) ∨
      ∃ name, fault = .labelNotFound name := by
  unfold ofList at h
  simp only at h
  split at h
  · exact Or.inl ⟨_, _, _, (Except.error.inj h).symm⟩
  · split at h
    · exact Or.inr ⟨_, (Except.error.inj h).symm⟩
    · contradiction

/-- The fault for which a unit is rejected: it cannot be assembled, or its instructions make no
program. -/
inductive RejectedFor (unit : SourceUnit) : Fault → Prop
  | assembling {fault : Fault} (h : assemble [unit] = .error (.fault fault)) :
      RejectedFor unit fault
  | building {instructions : List Instruction} {fault : Fault}
      (h : assemble [unit] = .ok instructions) (hfault : Program.ofList instructions = .error fault) :
      RejectedFor unit fault

theorem RejectedFor.isRejection {unit : SourceUnit} {fault : Fault} (h : RejectedFor unit fault) :
    fault.isRejection = true := by
  cases h with
  | assembling h =>
    rw [assemble_singleton] at h
    rcases SourceUnit.assemble_failure h with ⟨message, line, heq⟩ | ⟨cause, heq⟩
    · cases heq
      rfl
    · contradiction
  | building h hfault =>
    rcases Program.ofList_fault hfault with ⟨name, first, second, rfl⟩ | ⟨name, rfl⟩ <;> rfl

theorem buildProgram_eq_error_iff (unit : SourceUnit) (failure : Failure) :
    buildProgram [unit] = .error failure ↔
      (∃ fault, failure = .fault fault ∧ RejectedFor unit fault) ∨
        ∃ cause, failure = .overlong cause ∧ assemble [unit] = .error (.overlong cause) := by
  constructor
  · intro hbuild
    cases hassemble : assemble [unit] with
    | error cause =>
      have heq : buildProgram [unit] = .error cause := by
        unfold buildProgram
        rw [hassemble]
        rfl
      obtain rfl : cause = failure := Except.error.inj (heq.symm.trans hbuild)
      rcases SourceUnit.assemble_failure ((assemble_singleton unit).symm.trans hassemble) with
        ⟨message, line, rfl⟩ | ⟨cause, rfl⟩
      · exact Or.inl ⟨_, rfl, .assembling hassemble⟩
      · exact Or.inr ⟨cause, rfl, rfl⟩
    | ok instructions =>
      have heq : buildProgram [unit] = (Program.ofList instructions).mapError .fault := by
        unfold buildProgram
        rw [hassemble]
        rfl
      rw [heq] at hbuild
      cases hprogram : Program.ofList instructions with
      | error fault =>
        rw [hprogram] at hbuild
        exact Or.inl ⟨fault, (Except.error.inj hbuild).symm, .building hassemble hprogram⟩
      | ok program =>
        rw [hprogram] at hbuild
        contradiction
  · unfold buildProgram
    rintro (⟨fault, rfl, hfault⟩ | ⟨cause, rfl, hassemble⟩)
    · cases hfault with
      | assembling hassemble =>
        rw [hassemble]
        rfl
      | building hassemble hprogram =>
        rw [hassemble]
        exact congrArg (Except.mapError Failure.fault) hprogram
    · rw [hassemble]
      rfl

/-! ### Refusals -/

/-- One file is a program once it is read and built. -/
theorem loadProgram_singleton (files : Files) (source : Path) :
    loadProgram files [source] = match files.text source with
      | .error error => .error (.unreadable source error)
      | .ok contents => (buildProgram [{ name := source.stem, contents }]).mapError .failed := by
  have hcollected : collectFiles files [source] =
      (collectFile files source).map fun unit ↦ [unit] := by
    unfold collectFiles
    rw [List.mapM_cons]
    cases collectFile files source <;> rfl
  unfold loadProgram
  rw [hcollected]
  unfold collectFile
  cases files.text source <;> rfl

namespace Settings

/-- Why settings come to no machine. -/
inductive Refuses (settings : Settings) (files : Files) : Refusal → Prop
  | noSource (hsource : settings.source = none) : Refuses settings files .noSource
  | unreadable {source : Path} {error : ReadError} (hsource : settings.source = some source)
      (hcontents : files.text source = .error error) :
      Refuses settings files (.unreadable source error)
  | rejected {source : Path} {contents : String} {fault : Fault}
      (hsource : settings.source = some source) (hcontents : files.text source = .ok contents)
      (hfault : RejectedFor { name := source.stem, contents } fault) :
      Refuses settings files (.rejected fault)
  | overlong {source : Path} {contents : String} {cause : Numeral.Overlong}
      (hsource : settings.source = some source) (hcontents : files.text source = .ok contents)
      (hcause : assemble [{ name := source.stem, contents }] = .error (.overlong cause)) :
      Refuses settings files (.failed (.overlong cause))

variable {settings : Settings} {files : Files} {input : TokenReader} {output : Output}

theorem refuses_noSource_iff : settings.Refuses files .noSource ↔ settings.source = none := by
  constructor
  · rintro ⟨hsource⟩
    exact hsource
  · exact .noSource

theorem refuses_rejected_iff (fault : Fault) :
    settings.Refuses files (.rejected fault) ↔
      ∃ source contents, settings.source = some source ∧ files.text source = .ok contents ∧
        RejectedFor { name := source.stem, contents } fault := by
  constructor
  · intro hrefuses
    cases hrefuses with
    | rejected hsource hcontents hfault => exact ⟨_, _, hsource, hcontents, hfault⟩
  · rintro ⟨source, contents, hsource, hcontents, hfault⟩
    exact .rejected hsource hcontents hfault

theorem machine_of_loadError {source : Path} {error : LoadError}
    (hsource : settings.source = some source) (hload : loadProgram files [source] = .error error) :
    settings.machine files input output = .error (.ofLoadError error) := by
  unfold machine
  rw [hsource]
  simp only [hload]

/-- The machine that is to run a program under settings. -/
def startOn (settings : Settings) (program : Program) (input : TokenReader) (output : Output) :
    Machine :=
  .start program { r := settings.registers } input output
    (if settings.isTraced then some .log else none)

theorem machine_of_program {source : Path} {program : Program}
    (hsource : settings.source = some source) (hload : loadProgram files [source] = .ok program) :
    settings.machine files input output = .ok (settings.startOn program input output) := by
  unfold machine
  rw [hsource]
  simp only [hload, startOn]

theorem Refuses.machine_eq {refusal : Refusal} (h : settings.Refuses files refusal) :
    settings.machine files input output = .error refusal := by
  cases h with
  | noSource hsource =>
    unfold machine
    rw [hsource]
  | @unreadable source error hsource hcontents =>
    have hload : loadProgram files [source] = .error (.unreadable source error) := by
      rw [loadProgram_singleton, hcontents]
    exact machine_of_loadError hsource hload
  | @rejected source contents fault hsource hcontents hfault =>
    have hbuild := (buildProgram_eq_error_iff _ _).mpr (Or.inl ⟨fault, rfl, hfault⟩)
    have hload : loadProgram files [source] = .error (.failed (.fault fault)) := by
      simp only [loadProgram_singleton, hcontents, hbuild, Except.mapError]
    exact machine_of_loadError hsource hload
  | @overlong source contents cause hsource hcontents hcause =>
    have hbuild := (buildProgram_eq_error_iff _ _).mpr (Or.inr ⟨cause, rfl, hcause⟩)
    have hload : loadProgram files [source] = .error (.failed (.overlong cause)) := by
      simp only [loadProgram_singleton, hcontents, hbuild, Except.mapError]
    exact machine_of_loadError hsource hload

/-- There is a machine at the start of a program unless something in the settings or the files
forbids it. The console has no part in this. -/
theorem machine_cases (settings : Settings) (files : Files) :
    (∃ refusal, settings.Refuses files refusal) ∨
      ∃ program, ∀ input output,
        settings.machine files input output = .ok (settings.startOn program input output) := by
  cases hsource : settings.source with
  | none => exact Or.inl ⟨_, .noSource hsource⟩
  | some source =>
    cases hcontents : files.text source with
    | error error => exact Or.inl ⟨_, .unreadable hsource hcontents⟩
    | ok contents =>
      cases hbuild : buildProgram [{ name := source.stem, contents }] with
      | error failure =>
        rcases (buildProgram_eq_error_iff _ _).mp hbuild with ⟨fault, -, hfault⟩ |
          ⟨cause, -, hcause⟩
        · exact Or.inl ⟨_, .rejected hsource hcontents hfault⟩
        · exact Or.inl ⟨_, .overlong hsource hcontents hcause⟩
      | ok program =>
        have hload : loadProgram files [source] = .ok program := by
          simp only [loadProgram_singleton, hcontents, hbuild, Except.mapError]
        exact Or.inr ⟨program, fun input output ↦ machine_of_program hsource hload⟩

end Settings

/-! ### Runs from the start of a program -/

namespace Machine

variable {machine after : Machine} {budget : Budget} {fuel taken : Nat}

/-- A limit is not exceeded by a run that ends without a failure. -/
theorem taken_le_of_ok {limit : Value} (hrunning : machine.halted = false)
    (hrun : machine.run fuel (.limited (.integer limit)) = (after, some (.ok taken))) :
    (taken : Int) ≤ max limit.toInt 1 := by
  obtain ⟨-, -, -, -, hsilent⟩ := run_of_ok hrunning hrun
  by_cases hle : (taken : Int) ≤ max limit.toInt 1
  · exact hle
  · have hnone := hsilent (taken - 1) (by omega) (by omega)
    have hreached : (Limit.integer limit).reachedBy (taken - 1) = true :=
      (Limit.reachedBy_integer limit (taken - 1)).mpr (by omega)
    rw [Budget.failure?, if_pos hreached] at hnone
    contradiction

/-- The faults that stop a machine under a budget. -/
inductive RunFault (budget : Budget) : Fault → Prop
  | index (index : Value) (size : Int) : RunFault budget (.registerIndexOutOfRange index size)
  | token (token : Option String) : RunFault budget (.inputParseError token)
  | behind (pc : Value) (length : Int) : RunFault budget (.pcOutOfRange pc length)
  | limit {limit : Limit} (h : budget = .limited limit) : RunFault budget (.stepLimitExceeded limit)

theorem RunFault.isRejection_eq_false {fault : Fault} (h : RunFault budget fault) :
    fault.isRejection = false := by
  cases h <;> rfl

theorem failure?_fault {fault : Fault} (h : budget.failure? taken = some (.fault fault)) :
    RunFault budget fault := by
  cases budget with
  | unlimited => cases h
  | incomparable => cases h
  | limited limit =>
    rw [Budget.failure?] at h
    split at h
    · have heq := ((Failure.ofFault_eq_fault_iff _ _).mp (Option.some.inj h)).1
      rw [← heq]
      exact .limit rfl
    · contradiction

/-- A machine that is in its program is stopped by no fault of loading. -/
theorem InProgram.run_fault {program : Program} {fault : Fault} (h : InProgram program machine)
    (hrun : machine.run fuel budget = (after, some (.error (.fault fault)))) :
    RunFault budget fault := by
  obtain ⟨n, -, -, hended, -⟩ := (runFrom_eq_some_iff fuel machine).mp hrun
  have hin := afterSteps_preserves (fun _ ↦ inProgram_step) machine h n
  rcases (verdict_eq_error_iff _ _ _).mp hended with hstep | ⟨-, hfailure⟩
  · rcases hin.step_fault hstep with ⟨index, size, rfl⟩ | ⟨token, rfl⟩ | ⟨-, -, -, rfl⟩
    · exact .index index size
    · exact .token token
    · exact .behind _ _
  · exact failure?_fault hfailure

end Machine

namespace Settings

variable {settings : Settings} {files : Files} {input : TokenReader} {output : Output}
  {console after : Console} {outcome : Outcome} {fuel : Nat}

/-- An execution is refused and leaves the console as it was, or it is a run from the start of a
program and leaves the console of the machine. -/
theorem executeAt_cases
    (h : settings.executeAt fuel files console = some (outcome, after)) :
    (∃ refusal, settings.Refuses files refusal ∧ outcome = .refused refusal ∧ after = console) ∨
    (∃ program machine steps,
      (settings.startOn program console.input console.output).run fuel settings.budget =
        (machine, some (.ok steps)) ∧ outcome = .finished machine steps ∧
          after = machine.console) ∨
    (∃ program machine failure,
      (settings.startOn program console.input console.output).run fuel settings.budget =
        (machine, some (.error failure)) ∧ outcome = .stopped machine failure ∧
          after = machine.console) := by
  unfold executeAt at h
  rcases settings.machine_cases files with ⟨refusal, hrefuses⟩ | ⟨program, hmachine⟩
  · rw [hrefuses.machine_eq] at h
    cases h
    exact Or.inl ⟨refusal, hrefuses, rfl, rfl⟩
  · simp only [hmachine] at h
    rcases hrun : (settings.startOn program console.input console.output).run fuel settings.budget
      with ⟨machine, _ | failure | steps⟩
    · rw [hrun] at h
      contradiction
    · rw [hrun] at h
      cases h
      exact Or.inr (Or.inr ⟨program, machine, failure, hrun, rfl, rfl⟩)
    · rw [hrun] at h
      cases h
      exact Or.inr (Or.inl ⟨program, machine, steps, hrun, rfl, rfl⟩)

/-- What an execution comes to, the console that it leaves apart. -/
theorem execute_eq_some_iff :
    settings.execute fuel files input output = some outcome ↔
      ∃ after, settings.executeAt fuel files { input, output } = some (outcome, after) := by
  unfold execute
  rw [Option.map_eq_some_iff]
  constructor
  · rintro ⟨⟨_, after⟩, hexecute, rfl⟩
    exact ⟨after, hexecute⟩
  · rintro ⟨after, hexecute⟩
    exact ⟨(outcome, after), hexecute, rfl⟩

/-- What is refused leaves the console as it was. -/
theorem executeAt_eq_refused_iff (refusal : Refusal) :
    settings.executeAt fuel files console = some (.refused refusal, after) ↔
      settings.Refuses files refusal ∧ after = console := by
  constructor
  · intro h
    rcases executeAt_cases h with ⟨other, hother, heq, hafter⟩ | ⟨_, _, _, -, heq, -⟩ |
      ⟨_, _, _, -, heq, -⟩
    · cases heq
      exact ⟨hother, hafter⟩
    · contradiction
    · contradiction
  · rintro ⟨hrefuses, rfl⟩
    unfold executeAt
    rw [hrefuses.machine_eq]

theorem execute_eq_refused_iff (refusal : Refusal) :
    settings.execute fuel files input output = some (.refused refusal) ↔
      settings.Refuses files refusal := by
  rw [execute_eq_some_iff]
  constructor
  · rintro ⟨after, hexecute⟩
    exact ((executeAt_eq_refused_iff refusal).mp hexecute).1
  · intro hrefuses
    exact ⟨_, (executeAt_eq_refused_iff refusal).mpr ⟨hrefuses, rfl⟩⟩

theorem startOn_run_of_finished {machine : Machine} {steps : Nat}
    (h : settings.execute fuel files input output = some (.finished machine steps)) :
    ∃ program, (settings.startOn program input output).run fuel settings.budget =
      (machine, some (.ok steps)) := by
  obtain ⟨after, hexecute⟩ := execute_eq_some_iff.mp h
  rcases executeAt_cases hexecute with ⟨_, -, heq, -⟩ | ⟨program, _, _, hrun, heq, -⟩ |
    ⟨_, _, _, -, heq, -⟩
  · contradiction
  · cases heq
    exact ⟨program, hrun⟩
  · contradiction

theorem startOn_run_of_stopped {machine : Machine} {failure : Failure}
    (h : settings.execute fuel files input output = some (.stopped machine failure)) :
    ∃ program, (settings.startOn program input output).run fuel settings.budget =
      (machine, some (.error failure)) := by
  obtain ⟨after, hexecute⟩ := execute_eq_some_iff.mp h
  rcases executeAt_cases hexecute with ⟨_, -, heq, -⟩ | ⟨_, _, _, -, heq, -⟩ |
    ⟨program, _, _, hrun, heq, -⟩
  · contradiction
  · contradiction
  · cases heq
    exact ⟨program, hrun⟩

theorem runFault_of_stopped {machine : Machine} {fault : Fault}
    (h : settings.execute fuel files input output = some (.stopped machine (.fault fault))) :
    Machine.RunFault settings.budget fault := by
  obtain ⟨program, hrun⟩ := startOn_run_of_stopped h
  exact (Machine.inProgram_start program _ input output _).run_fault hrun

theorem halted_of_finished {machine : Machine} {steps : Nat}
    (h : settings.execute fuel files input output = some (.finished machine steps)) :
    machine.halted = true ∧ machine.current? = some .halt ∧ machine.steps = steps ∧ 1 ≤ steps := by
  obtain ⟨program, hrun⟩ := startOn_run_of_finished h
  obtain ⟨hhalted, hcurrent, hpositive, hsteps, -⟩ := Machine.run_of_ok rfl hrun
  exact ⟨hhalted, hcurrent, hsteps.trans (Nat.zero_add steps), hpositive⟩

theorem steps_le_of_finished {machine : Machine} {steps : Nat} {limit : Int}
    (hlimit : settings.maxSteps = some (.integer limit))
    (h : settings.execute fuel files input output = some (.finished machine steps)) :
    (steps : Int) ≤ max limit 1 := by
  obtain ⟨program, hrun⟩ := startOn_run_of_finished h
  have hbudget : settings.budget = .limited (.integer (.int limit)) := by
    unfold budget
    rw [hlimit]
  rw [hbudget] at hrun
  exact Machine.taken_le_of_ok rfl hrun

/-- An execution is refused for want of a source exactly if none is given, and a program is rejected
exactly for the fault that assembling it or building it has; either way the console stays as it was,
so that nothing has been written and no token taken. What is rejected is so at every console. A
fault with which a machine stops is none of loading. A machine that finishes has halted at a halt
instruction, after one step at least and no more than a limit allows. The outcome by itself is the
same, whether the console that is left is looked at or not. -/
theorem execute_tells_loading_from_running (settings : Settings) (files : Files)
    (console : Console) (fuel : Nat) :
    (∀ outcome, settings.execute fuel files console.input console.output = some outcome ↔
      ∃ after, settings.executeAt fuel files console = some (outcome, after)) ∧
    (∀ after, settings.executeAt fuel files console = some (.refused .noSource, after) ↔
      settings.source = none ∧ after = console) ∧
    (∀ fault after, settings.executeAt fuel files console =
        some (.refused (.rejected fault), after) ↔
      (∃ source contents, settings.source = some source ∧ files.text source = .ok contents ∧
        RejectedFor { name := source.stem, contents } fault) ∧ after = console) ∧
    (∀ fault after, settings.executeAt fuel files console =
        some (.refused (.rejected fault), after) →
      fault.isRejection = true ∧ ∀ fuel' console',
        settings.executeAt fuel' files console' = some (.refused (.rejected fault), console')) ∧
    (∀ fault after, settings.executeAt fuel files console ≠
      some (.refused (.failed (.fault fault)), after)) ∧
    (∀ machine fault after, settings.executeAt fuel files console =
        some (.stopped machine (.fault fault), after) →
      Machine.RunFault settings.budget fault ∧ fault.isRejection = false) ∧
    ∀ machine steps after, settings.executeAt fuel files console =
        some (.finished machine steps, after) →
      (machine.halted = true ∧ machine.current? = some .halt ∧ machine.steps = steps ∧ 1 ≤ steps) ∧
        ∀ limit, settings.maxSteps = some (.integer limit) → (steps : Int) ≤ max limit 1 := by
  refine ⟨fun outcome ↦ execute_eq_some_iff, ?_, ?_, ?_, ?_, ?_, ?_⟩
  · intro after
    rw [executeAt_eq_refused_iff, refuses_noSource_iff]
  · intro fault after
    rw [executeAt_eq_refused_iff, refuses_rejected_iff]
  · intro fault after hexecute
    obtain ⟨hrefuses, -⟩ := (executeAt_eq_refused_iff _).mp hexecute
    obtain ⟨source, contents, -, -, hfault⟩ := (refuses_rejected_iff fault).mp hrefuses
    exact ⟨hfault.isRejection, fun _ _ ↦ (executeAt_eq_refused_iff _).mpr ⟨hrefuses, rfl⟩⟩
  · intro fault after hexecute
    obtain ⟨hrefuses, -⟩ := (executeAt_eq_refused_iff _).mp hexecute
    cases hrefuses
  · intro machine fault after hexecute
    have hfault := runFault_of_stopped (execute_eq_some_iff.mpr ⟨after, hexecute⟩)
    exact ⟨hfault, hfault.isRejection_eq_false⟩
  · intro machine steps after hexecute
    have hfinished := execute_eq_some_iff.mpr ⟨after, hexecute⟩
    exact ⟨halted_of_finished hfinished, fun limit hlimit ↦ steps_le_of_finished hlimit hfinished⟩

/-- A halt instruction alone finishes, under a limit of 0 as well. A jump to no label is rejected at
every console, and leaves it as it was. -/
theorem execute_of_halt_and_of_undefined_label :
    let files : Files :=
      { bytes := fun path ↦
          .ok (if path = .ofText "halt" then [0x68, 0x6c, 0x74] else [0x6a, 0x6d, 0x70, 0x20, 0x78]) }
    let halting : Settings := { source := some (.ofText "halt"), maxSteps := some (.integer 0) }
    let jumping : Settings := { source := some (.ofText "jump") }
    (∃ machine after, halting.executeAt 1 files {} = some (.finished machine 1, after) ∧
      machine.halted = true ∧ machine.current? = some .halt) ∧
    ∀ fuel console, jumping.executeAt fuel files console =
      some (.refused (.rejected (.labelNotFound "x")), console) := by
  intro files halting jumping
  constructor
  · obtain ⟨-, -, -, -, -, -, hfinished⟩ := execute_tells_loading_from_running halting files {} 1
    have hfinishes :
        (halting.executeAt 1 files {}).any (fun ending ↦ ending.1 matches .finished ..) = true := by
      decide +kernel
    cases hexecute : halting.executeAt 1 files {} with
    | none =>
      rw [hexecute] at hfinishes
      contradiction
    | some ending =>
      rw [hexecute] at hfinishes
      obtain ⟨outcome, after⟩ := ending
      cases outcome with
      | refused refusal => contradiction
      | stopped machine failure => contradiction
      | finished machine steps =>
        obtain ⟨⟨hhalted, hcurrent, -, hpositive⟩, hlimit⟩ := hfinished machine steps after hexecute
        have hone : steps = 1 := by
          have hle := hlimit 0 rfl
          omega
        rw [hone]
        exact ⟨machine, after, rfl, hhalted, hcurrent⟩
  · obtain ⟨-, -, hrejected, halways, -⟩ := execute_tells_loading_from_running jumping files {} 0
    have hassembled : Assembly.assemble [⟨"jump", "jmp x"⟩] = .ok [.jump "x"] := by decide +kernel
    have hexecute := (hrejected (.labelNotFound "x") {}).mpr
      ⟨⟨.ofText "jump", "jmp x", rfl, by decide +kernel, .building hassembled rfl⟩, rfl⟩
    exact (halways _ _ hexecute).2

end Settings

end Accumulator
