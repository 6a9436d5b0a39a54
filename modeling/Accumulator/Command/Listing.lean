import Accumulator.Command.Report
import Accumulator.Text.ControlSequence

/-!
The command that lists a program made of several files, or only checks it. A fault of the program is
reported; a file that cannot be read breaks the command off.
-/

set_option autoImplicit false
set_option relaxedAutoImplicit false

namespace Accumulator.Command

/-- The options of the command. The one that shows the usage and ends with the exit code 0 is left
out: here it counts as unknown. -/
def listForms : List OptionForm :=
  [{ name := "--verbose", letter := some 'v', takesValue := false },
   { name := "--check", takesValue := false }]

structure ListOptions where
  verbose : Bool
  check : Bool
  sources : List Path

/-- The options of a command line. There is one source at least. -/
def ListOptions.parse (files : Files) (line : List String) : Except LineError ListOptions := do
  let some arguments := Arguments.parse listForms line | throw .usage
  let sources ← arguments.positional.mapM (presentPath files)
  if sources.isEmpty then throw .usage
  return { verbose := arguments.has "--verbose", check := arguments.has "--check", sources }

/-- The paths that a command line names. -/
def listPaths (line : List String) : List Path :=
  match Arguments.parse listForms line with
  | none => []
  | some arguments => arguments.positional.map Path.ofText

/-- Lines as they are shown, free of control sequences. -/
def shown (lines : List String) : String :=
  String.join (lines.map fun line ↦
    String.ofList (Text.withoutControlSequences line.toList) ++ "\n")

/-- Runs a command line. -/
def list (files : Files) (line : List String) : Report :=
  match ListOptions.parse files line with
  | .error error => .ofLineError error
  | .ok options =>
      let threshold := if options.verbose then Level.debug else .info
      let log := LogRecord.info "ACCVM ASM" :: LogRecord.ofLoading files options.sources
      let keep (last : List LogRecord) : List LogRecord :=
        LogRecord.keep threshold (log ++ last)
      match loadProgram files options.sources with
      | .error (.failed (.fault fault)) =>
          { exitCode := 1
            log := keep [.error s!"Assembly failed ({fault.kind}): {faultText fault}"] }
      | .error (.failed failure) => .ofCrash (.failed failure) (keep [])
      | .error (.unreadable path error) => .ofCrash (.unreadable path error) (keep [])
      | .ok program =>
          if options.check then
            let size := program.size
            let labels := program.labels.length
            { exitCode := 0, log := keep [.info s!"{size} instructions, {labels} labels"] }
          else
            match program.plainListing with
            | .ok lines =>
                { exitCode := 0, output := shown lines, log := keep [] }
            | .error cause => .ofCrash (.failed (.overlong cause)) (keep [])

end Accumulator.Command
