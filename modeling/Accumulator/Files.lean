import Accumulator.Path
import Accumulator.Text.Lines
import Accumulator.Text.Quoted
import Accumulator.Text.Utf8

/-!
The files that a command can read. `Files` says what reading a path gives; a `FileTree` is one
source of such an answer, a finite set of files below a working directory.
-/

set_option autoImplicit false
set_option relaxedAutoImplicit false

namespace Accumulator

abbrev Bytes := List UInt8

inductive ReadError where
  | notFound
  | isDirectory
  | notDirectory
  | nameTooLong
  | nulCharacter
  | undecodable (error : Text.Utf8.Error)
  deriving DecidableEq, Repr

/-- The message of the error for a path. -/
def ReadError.message (path : Path) : ReadError → String
  | .notFound => s!"[Errno 2] No such file or directory: {Text.quoted path.text}"
  | .isDirectory => s!"[Errno 21] Is a directory: {Text.quoted path.text}"
  | .notDirectory => s!"[Errno 20] Not a directory: {Text.quoted path.text}"
  | .nameTooLong => s!"[Errno 36] File name too long: {Text.quoted path.text}"
  | .nulCharacter => "embedded null byte"
  | .undecodable error => error.message

structure Files where
  bytes : Path → Except ReadError Bytes

namespace Files

/-- The longest name of a file, in bytes. -/
def maxNameSize : Nat := 255

/-- The longest path, in bytes. -/
def maxPathSize : Nat := 4095

/-- The text of a file, its line ends made uniform. -/
def text (files : Files) (path : Path) : Except ReadError String := do
  let bytes ← files.bytes path
  match Text.Utf8.decode bytes with
  | .ok text => return String.ofList (Text.unifyLineEnds text.toList)
  | .error error => throw (.undecodable error)

end Files

/-- Files and directories by their components below the working directory. The directories on the
way to them need not be named. -/
structure FileTree where
  files : List (List String × Bytes) := []
  directories : List (List String) := []

namespace FileTree

def isDirectory (tree : FileTree) (place : List String) : Bool :=
  place.isEmpty || tree.directories.any place.isPrefixOf
    || tree.files.any fun (file, _) ↦ place.isPrefixOf file && place != file

/-- Walks a path from a place in the tree or, if there is none, from somewhere above it, where
nothing is known but the parents. A name is looked up only in a directory that is there, and only
then may it be too long. -/
def walk (tree : FileTree) : Option (List String) → List String → Except ReadError Bytes
  | _, [] => .error .isDirectory
  | none, name :: rest =>
      if name == ".." then walk tree none rest
      else if name.utf8ByteSize > Files.maxNameSize then .error .nameTooLong
      else .error .notFound
  | some place, name :: rest =>
      if name == ".." then
        walk tree (if place.isEmpty then none else some place.dropLast) rest
      else if name.utf8ByteSize > Files.maxNameSize then .error .nameTooLong
      else
        let place := place ++ [name]
        if tree.isDirectory place then walk tree (some place) rest
        else
          match tree.files.lookup place with
          | some bytes => if rest.isEmpty then .ok bytes else .error .notDirectory
          | none => .error .notFound

def bytes (tree : FileTree) (path : Path) : Except ReadError Bytes :=
  if path.text.toList.contains '\x00' then .error .nulCharacter
  else if path.text.utf8ByteSize > Files.maxPathSize then .error .nameTooLong
  else walk tree (if path.isAbsolute then none else some []) path.parts

def toFiles (tree : FileTree) : Files := { bytes := tree.bytes }

end FileTree

end Accumulator
