import Accumulator.Command.Report

/-!
The command that runs a program. Its exit code tells the ways to fail apart: a program that is
rejected, a fault while it runs, a keyboard interrupt, and any other failure.

Details are logged if they are asked for or steps are traced. When settings come from a file, only
errors are logged.
-/

set_option autoImplicit false
set_option relaxedAutoImplicit false

namespace Accumulator.Command

/-- The options of the command. The one that shows the usage and ends with the exit code 0 is left
out: here it counts as unknown. -/
def runForms : List OptionForm :=
  [{ name := "--verbose", letter := some 'v', takesValue := false },
   { name := "--config", letter := some 'c', takesValue := true },
   { name := "--register", letter := some 'r', takesValue := true },
   { name := "--trace", takesValue := false },
   { name := "--max-steps", takesValue := true }]

structure RunOptions where
  verbose : Bool
  config : Option Path
  registers : List Int
  trace : Bool
  maxSteps : Option Int
  source : Option Path

namespace RunOptions

def configOf (files : Files) (arguments : Arguments) : Except LineError (Option Path) :=
  (arguments.value? "--config").mapM (presentPath files)

def registersOf (arguments : Arguments) : Except LineError (List Int) :=
  (arguments.values "--register").mapM integer

/-- A step limit is positive. -/
def maxStepsOf (arguments : Arguments) : Except LineError (Option Int) :=
  (arguments.value? "--max-steps").mapM fun argument ↦ do
    let n ← integer argument
    if n < 1 then throw .usage
    return n

/-- There is one source at most. -/
def sourceOf (files : Files) (arguments : Arguments) : Except LineError (Option Path) :=
  match arguments.positional with
  | [] => .ok none
  | argument :: more => do
      let path ← presentPath files argument
      if !more.isEmpty then throw .usage
      return some path

/-- Whether the values of an option stand for something. -/
def checkOption (files : Files) (arguments : Arguments) (name : String) : Except LineError Unit :=
  if name == "--config" then discard (configOf files arguments)
  else if name == "--register" then discard (registersOf arguments)
  else if name == "--max-steps" then discard (maxStepsOf arguments)
  else .ok ()

/-- The options of a command line. They are checked in the order in which they are given, and the
source comes last. -/
def parse (files : Files) (line : List String) : Except LineError RunOptions := do
  let some arguments := Arguments.parse runForms line | throw .usage
  arguments.names.forM (checkOption files arguments)
  return {
    verbose := arguments.has "--verbose"
    config := ← configOf files arguments
    registers := ← registersOf arguments
    trace := arguments.has "--trace"
    maxSteps := ← maxStepsOf arguments
    source := ← sourceOf files arguments }

end RunOptions

/-- The paths that a command line names. -/
def runPaths (line : List String) : List Path :=
  match Arguments.parse runForms line with
  | none => []
  | some arguments => (arguments.values "--config" ++ arguments.positional).map Path.ofText

/-- What the options change in the settings. Registers count if there are any, and a trace can only
be switched on. -/
def RunOptions.changes (options : RunOptions) : Settings.Update where
  registers := if options.registers.isEmpty then none else some (options.registers.map .int)
  source := options.source
  trace := if options.trace then some (.boolean true) else none
  maxSteps := options.maxSteps.map .integer
  verbose := some options.verbose

/-- The settings in force: those of the file, if one is given, under those of the options. -/
def RunOptions.settings (options : RunOptions) (files : Files) :
    Except Settings.LoadError Settings := do
  let loaded ← match options.config with
    | some config => Settings.load files config
    | none => .ok {}
  return loaded.update options.changes

/-- The source that a command line comes to, itself or by the settings it names. -/
def runSource? (files : Files) (line : List String) : Option Path := do
  let options ← (RunOptions.parse files line).toOption
  (← (options.settings files).toOption).source

/-- The lowest level of records that are logged. -/
def RunOptions.threshold (options : RunOptions) (settings : Settings) : Level :=
  if options.config.isSome then .error
  else if settings.verbose || settings.isTraced then .debug
  else .info

inductive ExitCode where
  | halted
  | rejected
  | interrupted
  | fault
  | general

def ExitCode.toNat : ExitCode → Nat
  | .halted => 0
  | .rejected => 1
  | .interrupted => 3
  | .fault => 4
  | .general => 100

def generalRecord (text : String) : LogRecord :=
  .info s!"Execution halted on general error {text}"

/-- The record of what a machine reported, if that goes to the log. -/
def eventRecord? : Event → Option LogRecord
  | .collected _ => none
  | .logged snapshot => some (.debug snapshot)
  | .halted pc steps =>
      let pc := pc.text.toOption.getD ""
      some (.debug s!"Halted at {pc} after {steps} steps")

/-- A program about to run. -/
structure Session where
  machine : Machine
  budget : Budget
  threshold : Level
  log : List LogRecord

namespace Session

/-- The records of what a machine reported. -/
def records (session : Session) (machine : Machine) : List LogRecord :=
  LogRecord.keep session.threshold (machine.journal.toList.filterMap eventRecord?)

/-- What is left when the machine does not go on. -/
def finish (session : Session) (machine : Machine) (result : Except Failure Nat) : Report :=
  let (code, last) : ExitCode × LogRecord := match result with
    | .ok steps =>
        let pc := machine.registers.pc.text.toOption.getD ""
        (.halted, .info s!"Halted at pc = {pc} after {steps} steps")
    | .error (.fault fault) =>
        (.fault, .error s!"Execution halted on fault ({fault.kind}): {faultText fault}")
    | .error .interrupt => (.interrupted, .info "Execution halted by the user")
    | .error failure => (.general, generalRecord (failureText failure))
  { exitCode := code.toNat
    output := machine.output.written
    log := session.log ++ session.records machine ++ LogRecord.keep session.threshold [last] }

end Session

def refusalReport (threshold : Level) (log : List LogRecord) (refusal : Refusal) : Report :=
  let ended (code : ExitCode) (last : LogRecord) : Report :=
    { exitCode := code.toNat, log := LogRecord.keep threshold (log ++ [last]) }
  match refusal with
  | .noSource => { exitCode := usageCode, log := LogRecord.keep threshold log }
  | .rejected fault =>
      ended .rejected (.error s!"Program rejected ({fault.kind}): {faultText fault}")
  | .unreadable path error => ended .general (generalRecord (error.message path))
  | .failed failure => ended .general (generalRecord (failureText failure))

/-- Everything up to the first step: a session, or the report of what prevented one. -/
def begin (files : Files) (input : TokenReader) (line : List String) : Except Report Session :=
  match RunOptions.parse files line with
  | .error error => .error (.ofLineError error)
  | .ok options =>
      match options.settings files with
      | .error error => .error (.ofCrash (.settings error) [])
      | .ok settings =>
          let threshold := options.threshold settings
          let log := LogRecord.info "ACCVM" :: LogRecord.ofLoading files settings.source.toList
          match settings.machine files input {} with
          | .error refusal => .error (refusalReport threshold log refusal)
          | .ok machine =>
              .ok {
                machine
                budget := settings.budget
                threshold
                log := LogRecord.keep threshold log }

/-- Runs a command line. There is no report if the fuel was used up first. -/
def run (fuel : Nat) (files : Files) (input : TokenReader) (line : List String) : Option Report :=
  match begin files input line with
  | .error report => some report
  | .ok session =>
      match session.machine.run fuel session.budget with
      | (_, none) => none
      | (machine, some result) => some (session.finish machine result)

end Accumulator.Command
