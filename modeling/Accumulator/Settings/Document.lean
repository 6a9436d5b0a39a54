import Accumulator.Files
import Accumulator.Settings
import Accumulator.Toml.Document
import Accumulator.Toml.Order

/-!
Settings from a document. They stand in the table `machine`, which holds no names but those of
settings. The registers have to be integers; the source is a path, seen from the directory of the
document. Whatever else `machine` is, its members are looked at before it is found to be no table.
-/

set_option autoImplicit false
set_option relaxedAutoImplicit false

namespace Accumulator.Settings

inductive Error where
  /-- The document has a fault. -/
  | malformed
  /-- Values are nested too deep to be read or shown. -/
  | nested
  | overlong (cause : Numeral.Overlong)
  /-- Names that are no settings, and their text. -/
  | unknown (names : String)
  /-- Registers that are no integers, and their text. -/
  | registers (text : String)
  /-- A value of a type that cannot be used where it stands. -/
  | unsuitable
  /-- Settings that form no table. -/
  | noTable
  deriving DecidableEq, Repr

/-- The message of an error; some have none of their own. -/
def Error.message? : Error → Option String
  | .overlong cause => some cause.message
  | .unknown names => some s!"Unknown machine settings {names}"
  | .registers text => some s!"Registers must be integers, got {text}"
  | .malformed | .nested | .unsuitable | .noTable => none

/-- The error of a message that cannot be made. -/
def Error.ofUnshown : Toml.Value.Unshown → Error
  | .nested => .nested
  | .overlong cause => .overlong cause

def names : List String := ["registers", "source", "trace", "max_steps"]

/-- The members of a value: the names in a table, the elements of an array, the characters of a
text. -/
def members (value : Toml.Value) : Except Error (List Toml.Value) :=
  match value with
  | .table entries => .ok (entries.map fun (name, _) ↦ .string name)
  | .array elements => .ok elements
  | .string text => .ok (text.toList.map fun c ↦ .string (String.singleton c))
  | _ => .error .unsuitable

def isName : Toml.Value → Bool
  | .string text => names.contains text
  | _ => false

/-- Refuses members that are no names of settings. They are shown once each and in order. -/
def checkNames (value : Toml.Value) : Except Error Unit := do
  let ranked ← (← members value).mapM fun member ↦
    match member.rank? with
    | some rank => .ok (rank, member)
    | none => .error .unsuitable
  let others := Toml.distinct [] (ranked.filter fun (_, member) ↦ !isName member)
  match Toml.sorted? others with
  | none => throw .unsuitable
  | some [] => return
  | some unknown =>
      match Toml.Value.text (.array unknown) with
      | .ok text => throw (.unknown text)
      | .error cause => throw (.ofUnshown cause)

/-- The value as a register's, if it is an integer. Truth values count as integers. -/
def registerValue? : Toml.Value → Option Value
  | .integer n => some (.int n)
  | .boolean b => some (.bool b)
  | _ => none

def registersOf (value : Toml.Value) : Except Error (List Value) :=
  let values? := match value with
    | .array elements => elements.mapM registerValue?
    | _ => none
  match values? with
  | some values => .ok values
  | none =>
      match value.text with
      | .ok text => .error (.registers text)
      | .error cause => .error (.ofUnshown cause)

def sourceOf (base : Option Path) : Toml.Value → Except Error Path
  | .string text =>
      let path := Path.ofText text
      .ok ((base.map path.seenFrom).getD path)
  | _ => .error .unsuitable

/-- The settings that the table `machine` makes, over the defaults. -/
def ofTable (base : Option Path) (document : Toml.Table) : Except Error Settings := do
  let machine := (document.find? "machine").getD (.table [])
  checkNames machine
  match machine with
  | .table entries =>
      let entries : Toml.Table := entries
      let registers ← (entries.find? "registers").mapM registersOf
      let source ← (entries.find? "source").mapM (sourceOf base)
      let trace := entries.find? "trace"
      let maxSteps := entries.find? "max_steps"
      return ({} : Settings).update { registers, source, trace, maxSteps }
  | _ => throw .noTable

/-- The settings in a text. -/
def parse (text : String) (base : Option Path) : Except Error Settings :=
  match Toml.parse text with
  | .ok document => ofTable base document
  | .error .malformed => .error .malformed
  | .error .nested => .error .nested
  | .error (.overlong cause) => .error (.overlong cause)

/-- Why settings could not be loaded from a file. -/
inductive LoadError where
  | unreadable (path : Path) (error : ReadError)
  | invalid (error : Error)
  deriving DecidableEq, Repr

/-- The settings in a file, whose directory is the one that the source is seen from. -/
def load (files : Files) (path : Path) : Except LoadError Settings :=
  match files.text path with
  | .error error => .error (.unreadable path error)
  | .ok text => (parse text (some path.parent)).mapError .invalid

end Accumulator.Settings
