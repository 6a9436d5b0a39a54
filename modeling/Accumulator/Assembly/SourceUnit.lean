import Accumulator.Assembly.Item
import Accumulator.Failure
import Accumulator.Text.Blank
import Accumulator.Text.TabStop

/-!
Source units and their instructions. A unit is read as a whole before any of it counts: a register
number with too many digits is refused wherever it stands, and only then are its instructions issued
one after the other, up to the first unknown command, which rejects the unit. Several units are
assembled in one pass into one list of instructions; a unit with a fault hides all later ones.
-/

set_option autoImplicit false
set_option relaxedAutoImplicit false

namespace Accumulator.Assembly

structure SourceUnit where
  name : String := "<source>"
  contents : String
  deriving DecidableEq, Repr

def Item.instruction? : Item → Option Instruction
  | .instruction i => some i
  | _ => none

def Item.overlong? : Item → Option Numeral.Overlong
  | .overlong cause => some cause
  | _ => none

def Item.unknown? : Item → Option (List Char)
  | .unknown text => some text
  | _ => none

/-- The fault of an unknown command in a source text. Its line is counted by the line ends before
it. -/
def unknownCommand (name : String) (source text : List Char) : Fault :=
  let command := String.ofList (Text.strip (text.takeWhile (· != '\n')))
  let line := 1 + source.count '\n' - text.count '\n'
  .syntaxError s!"Unknown command {command} in {name}" (some line)

/-- A pass over source units: the instructions issued so far, and whether it has failed. -/
abbrev Pass := Array Instruction × Except Failure Unit

/-- The instructions of a pass that has not failed. -/
def Pass.instructions : Pass → Except Failure (List Instruction)
  | (issued, .ok ()) => .ok issued.toList
  | (_, .error failure) => .error failure

/-- Issues the items of a source text behind what is issued, up to the first unknown command. -/
def issueItems (name : String) (source : List Char) (issued : Array Instruction) :
    List Item → Pass
  | [] => (issued, .ok ())
  | .instruction i :: rest => issueItems name source (issued.push i) rest
  | .unknown text :: _ => (issued, .error (.fault (unknownCommand name source text)))
  | .comment :: rest | .overlong _ :: rest => issueItems name source issued rest

namespace SourceUnit

/-- The text that is read: tabs count as spaces wherever they stand. -/
def source (unit : SourceUnit) : List Char := Text.expandTabs unit.contents.toList

/-- Issues the instructions of a unit behind those of the units before it. -/
def issue (unit : SourceUnit) (issued : Array Instruction) : Pass :=
  let items := items unit.source
  match items.findSome? Item.overlong? with
  | some cause => (issued, .error (.overlong cause))
  | none => issueItems unit.name unit.source issued items

/-- The instructions of a unit by itself. -/
def assemble (unit : SourceUnit) : Except Failure (List Instruction) :=
  (unit.issue #[]).instructions

end SourceUnit

/-- Issues the instructions of units one after the other, up to the first unit with a fault. -/
def issueUnits (issued : Array Instruction) : List SourceUnit → Pass
  | [] => (issued, .ok ())
  | unit :: rest =>
      match unit.issue issued with
      | (issued, .ok ()) => issueUnits issued rest
      | (issued, .error failure) => (issued, .error failure)

/-- The instructions of several units. -/
def assemble (units : List SourceUnit) : Except Failure (List Instruction) :=
  (issueUnits #[] units).instructions

end Accumulator.Assembly
