import Accumulator.Text.Blank

/-!
File paths in normal form: repeated slashes count as one, components that name the directory itself
vanish, and those that name the parent stay. A path is absolute by one slash or, as a root of its
own, by exactly two.
-/

set_option autoImplicit false
set_option relaxedAutoImplicit false

namespace Accumulator

inductive Path.Root where
  | relative
  | slash
  | doubleSlash
  deriving DecidableEq, Repr

structure Path where
  root : Path.Root := .relative
  parts : List String := []
  deriving DecidableEq, Repr

namespace Path

def Root.text : Root → String
  | .relative => ""
  | .slash => "/"
  | .doubleSlash => "//"

def ofText (text : String) : Path :=
  let slashes := (text.toList.takeWhile (· == '/')).length
  let root := if slashes == 0 then Root.relative else if slashes == 2 then .doubleSlash else .slash
  { root, parts := ((Text.wordsBy (· == '/') text.toList).map String.ofList).filter (· != ".") }

def text (path : Path) : String :=
  if path.root = .relative ∧ path.parts = [] then "."
  else path.root.text ++ "/".intercalate path.parts

def isAbsolute (path : Path) : Bool := path.root != .relative

/-- A path as seen from a directory. An absolute one is the same from everywhere. -/
def seenFrom (path base : Path) : Path :=
  if path.isAbsolute then path else { base with parts := base.parts ++ path.parts }

/-- The directory of a path, by its text alone. -/
def parent (path : Path) : Path := { path with parts := path.parts.dropLast }

/-- The last component. -/
def name (path : Path) : String := path.parts.getLastD ""

/-- The last component without its suffix: what stands before its last point, unless the point is
the first or the last character. -/
def stem (path : Path) : String :=
  let name := path.name.toList
  let suffix := name.reverse.takeWhile (· != '.')
  let before := name.length - suffix.length - 1
  if suffix.isEmpty || before == 0 || suffix.length == name.length then path.name
  else String.ofList (name.take before)

end Path

end Accumulator
