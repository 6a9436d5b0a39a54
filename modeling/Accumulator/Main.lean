import Accumulator.Command.Listing
import Accumulator.Command.Run

/-!
The command line: `run` executes a program, `list` shows one. Output goes to standard output and the
log to standard error. A line of standard input is read only when a step finds no token left, and
then after the prompt of that step was shown.
-/

set_option autoImplicit false
set_option relaxedAutoImplicit false

namespace Accumulator.Command

/-- The number of the system's error for a directory that is read as a file. -/
def directoryError : UInt32 := 21

def readFile (path : Path) : IO (Except ReadError Bytes) := do
  try
    return .ok (← IO.FS.readBinFile path.text).toList
  catch
    | .noFileOrDirectory .. => return .error .notFound
    | .inappropriateType _ code _ =>
        return .error (if code = directoryError then .isDirectory else .notDirectory)
    | error => throw error

/-- The files at some paths. All others count as missing. -/
def readFiles (paths : List Path) : IO Files := do
  let found ← paths.mapM fun path ↦ return (path, ← readFile path)
  return { bytes := fun path ↦ (found.lookup path).getD (.error .notFound) }

def emit (output : String) (log : List LogRecord) : IO Unit := do
  let stdout ← IO.getStdout
  stdout.putStr output
  stdout.flush
  for record in log do
    let level := record.level.text
    IO.eprintln s!"{level}: {record.message}"

def emitReport (report : Report) : IO UInt32 := do
  emit report.output report.log
  if report.exitCode = usageCode then IO.eprintln "The command line cannot be understood."
  if let some crash := report.uncaught then IO.eprintln crash.message
  return report.exitCode.toUInt32

/-- Takes the steps of a session. One that finds no token left is taken again with the next line. -/
def converse (session : Session) : IO Report := do
  let stdin ← IO.getStdin
  emit "" session.log
  let session := { session with log := [] }
  let mut machine := session.machine
  let mut shown := 0
  repeat
    let (after, ended) := machine.runStep session.budget session.machine.steps
    emit (after.output.written.drop shown).copy (session.records after)
    let line ← match ended with
      | some (.error failure) => if failure.isEndOfInput then stdin.getLine else pure ""
      | _ => pure ""
    if line.isEmpty then
      if let some result := ended then return session.finish after.fresh result
      machine := after.fresh
      shown := 0
    else
      machine := { machine with input := machine.input.feed line }
      shown := after.output.written.length
  return { exitCode := crashCode }

def runMain (line : List String) : IO UInt32 := do
  let files ← readFiles (runPaths line)
  let files ← readFiles (runPaths line ++ (runSource? files line).toList)
  match begin files (.ofText "") line with
  | .error report => emitReport report
  | .ok session => emitReport (← converse session)

def listMain (line : List String) : IO UInt32 := do
  emitReport (list (← readFiles (listPaths line)) line)

/-- Runs a command by its name. -/
def dispatch : List String → IO UInt32
  | "run" :: line => runMain line
  | "list" :: line => listMain line
  | _ => emitReport { exitCode := usageCode }

end Accumulator.Command

def main (arguments : List String) : IO UInt32 := Accumulator.Command.dispatch arguments
