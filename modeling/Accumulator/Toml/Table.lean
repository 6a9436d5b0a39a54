import Accumulator.Toml.Quotation
import Accumulator.Toml.Value

/-!
Tables under construction. A path leads through tables, which are made where they are missing, and
through arrays of tables to their last element. What may be added where is recorded by marks on
paths: a table with a heading of its own is not opened again, and nothing is added to a value
written in one piece.
-/

set_option autoImplicit false
set_option relaxedAutoImplicit false

namespace Accumulator.Toml

namespace Table

def find? (table : Table) (name : String) : Option Value := table.lookup name

/-- The table with another value for a name that it has. -/
def replace (table : Table) (name : String) (value : Value) : Table :=
  table.map fun entry ↦ if entry.1 == name then (name, value) else entry

/-- The table with one more entry, unless it has one of that name. -/
def add? (table : Table) (name : String) (value : Value) : Option Table :=
  if (table.find? name).isSome then none else some (table ++ [(name, value)])

/-- The table with the table at the end of a path changed. Some paths lead through arrays. -/
def modify? (throughArrays : Bool) (change : Table → Option Table) : Key → Table → Option Table
  | [], table => change table
  | name :: path, table =>
      match table.find? name with
      | none => do
          let inner ← modify? throughArrays change path []
          return table ++ [(name, .table inner)]
      | some (.table inner) => do
          let inner ← modify? throughArrays change path inner
          return table.replace name (.table inner)
      | some (.array elements) =>
          match elements.getLast? with
          | some (.table inner) =>
              if throughArrays then do
                let inner ← modify? throughArrays change path inner
                return table.replace name (.array (elements.dropLast ++ [.table inner]))
              else none
          | _ => none
      | some _ => none

/-- The table with one more empty table in the array of a name, which is made if it is missing. -/
def addElement? (name : String) (table : Table) : Option Table :=
  match table.find? name with
  | none => some (table ++ [(name, .array [.table []])])
  | some (.array elements) => some (table.replace name (.array (elements ++ [.table []])))
  | some _ => none

end Table

inductive Mark where
  /-- A table that no heading opens again. -/
  | opened
  /-- A value to which nothing is added, nor to anything inside it. -/
  | closed
  deriving DecidableEq, Repr

abbrev Marks := List (Key × Mark)

namespace Marks

def isOpened (marks : Marks) (path : Key) : Bool := marks.contains (path, .opened)

def isClosed (marks : Marks) (path : Key) : Bool :=
  marks.any fun (marked, mark) ↦ mark == .closed && marked.isPrefixOf path

def add (marks : Marks) (path : Key) (mark : Mark) : Marks := (path, mark) :: marks

/-- The marks outside a path. -/
def clear (marks : Marks) (path : Key) : Marks :=
  marks.filter fun (marked, _) ↦ !path.isPrefixOf marked

/-- Marks a value written in one piece, if it has an inside. -/
def addValue (marks : Marks) (path : Key) : Value → Marks
  | .array _ | .table _ => marks.add path .closed
  | _ => marks

end Marks

end Accumulator.Toml
