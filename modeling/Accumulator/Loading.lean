import Accumulator.Assembly.SourceUnit
import Accumulator.Files
import Accumulator.Log
import Accumulator.Program

/-!
Loading a program from files. All files are read before any of them is assembled, and a program is
built of the instructions of all. What the log tells of it is computed beside the result.
-/

set_option autoImplicit false
set_option relaxedAutoImplicit false

namespace Accumulator

open Assembly (SourceUnit)

inductive LoadError where
  | unreadable (path : Path) (error : ReadError)
  | failed (failure : Failure)
  deriving DecidableEq, Repr

/-- The source unit in a file. It is named for the file. -/
def collectFile (files : Files) (path : Path) : Except LoadError SourceUnit :=
  match files.text path with
  | .ok contents => .ok { name := path.stem, contents }
  | .error error => .error (.unreadable path error)

def collectFiles (files : Files) (paths : List Path) : Except LoadError (List SourceUnit) :=
  paths.mapM (collectFile files)

/-- The program that source units make. -/
def buildProgram (units : List SourceUnit) : Except Failure Program := do
  let instructions ← Assembly.assemble units
  (Program.ofList instructions).mapError .fault

def loadProgram (files : Files) (paths : List Path) : Except LoadError Program := do
  let units ← collectFiles files paths
  (buildProgram units).mapError .failed

namespace LogRecord

/-- One record a file, up to the first that cannot be read. -/
def ofCollecting (files : Files) : List Path → List LogRecord
  | [] => []
  | path :: rest =>
      .debug s!"Collecting file {path.text}" ::
        if (files.text path).toBool then ofCollecting files rest else []

def ofIssuing (offset : Nat) (instructions : List Instruction) : List LogRecord :=
  instructions.zipIdx.map fun (instruction, i) ↦
    let text := instruction.text.toOption.getD ""
    let shown := String.ofList (Text.strip text.toList)
    .debug s!"Issuing {offset + i}: {shown}"

/-- One record a unit and one an instruction, up to the first fault. -/
def ofAssembling (issued : Array Instruction) : List SourceUnit → List LogRecord
  | [] => []
  | unit :: rest =>
      let (after, result) := unit.issue issued
      .info s!"Processing {unit.name}" ::
        (ofIssuing issued.size (after.toList.drop issued.size)
          ++ match result with
            | .error _ => []
            | .ok () => ofAssembling after rest)

/-- One record a label, up to the first that repeats a name. -/
def ofLabels (labels : Labels) : List LogRecord :=
  let defined := match labels.repeated? with
    | none => labels
    | some (_, _, second) => labels.takeWhile fun (_, address) ↦ address < second
  defined.map fun (name, address) ↦ .debug s!"Label {name} @ {address}"

def ofLoading (files : Files) (paths : List Path) : List LogRecord :=
  ofCollecting files paths
    ++ match collectFiles files paths with
      | .error _ => []
      | .ok units =>
          ofAssembling #[] units
            ++ match Assembly.assemble units with
              | .error _ => []
              | .ok instructions => ofLabels (Labels.ofList instructions)

end LogRecord

end Accumulator
