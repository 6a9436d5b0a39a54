import Accumulator.Toml.Number
import Accumulator.Toml.Table

/-!
Documents: settings files as tables. A document is a row of statements, one a line: an entry, a
heading that opens a table, or one that adds a table to an array. Entries belong to the table of the
last heading.

`Toml.parse` reads the statements in order and stops at the first fault. The length of the text is
fuel enough for all loops. How deep values are nested is bounded besides, a table on one line counting
more than an array.
-/

set_option autoImplicit false
set_option relaxedAutoImplicit false

namespace Accumulator.Toml

namespace Reader

/-- Skips blanks, line ends and comments. -/
def skipLines : Nat → Reader Unit
  | 0 => malformed
  | fuel + 1 => do
      skipWhile fun c ↦ isBlank c || c == '\n'
      if (← peek) == some '#' then
        skipComment
        skipLines fuel

def scalar : Reader Value := do
  if ← startsWith ['t', 'r', 'u', 'e'] then
    skip 4
    return .boolean true
  if ← startsWith ['f', 'a', 'l', 's', 'e'] then
    skip 5
    return .boolean false
  match ← take? moment? with
  | some (some moment) => return .moment moment
  | some none => malformed
  | none =>
      match ← take? number? with
      | some (.ok value) => return value
      | some (.error cause) => throw (.overlong cause)
      | none => malformed

/-- How deep values may be nested in all, by the depths of what is around the innermost one. The
bound stands for a reader that runs out of stack. It and the depths of arrays and tables are fitted
to one size of the stack and one depth of the call; a different stack has other numbers. -/
def maxDepth : Nat := 982

/-- What an array adds to the depth, on the stack that `maxDepth` is fitted to. -/
def arrayDepth : Nat := 2

/-- What a table adds to the depth, on the stack that `maxDepth` is fitted to. -/
def tableDepth : Nat := 3

/-- The depth inside a value that counts so much, unless that is too deep. -/
def deeper (depth more : Nat) : Reader Nat :=
  if depth + more ≤ maxDepth then return depth + more else throw .nested

mutual

/-- The value inside values of the given depth. -/
def value (depth : Nat) : Nat → Reader Value
  | 0 => malformed
  | fuel + 1 => do
      match ← peek with
      | some '"' | some '\'' =>
          match ← take? string? with
          | some text => return .string text
          | none => malformed
      | some '[' =>
          skip 1
          return .array (← elements (← deeper depth arrayDepth) fuel [])
      | some '\x7b' =>
          skip 1
          skipBlanks
          if (← peek) == some '\x7d' then
            skip 1
            return .table []
          return .table (← entries (← deeper depth tableDepth) fuel [] [])
      | _ => scalar

/-- The elements of an array behind those read already, which are in reverse. -/
def elements (depth : Nat) : Nat → List Value → Reader (List Value)
  | 0, _ => malformed
  | fuel + 1, done => do
      skipLines fuel
      if (← peek) == some ']' then
        skip 1
        return done.reverse
      let element ← value depth fuel
      skipLines fuel
      match ← peek with
      | some ']' =>
          skip 1
          return (element :: done).reverse
      | some ',' =>
          skip 1
          elements depth fuel (element :: done)
      | _ => malformed

/-- The entries of a table on one line, in addition to those of `table`. -/
def entries (depth : Nat) : Nat → Table → Marks → Reader Table
  | 0, _, _ => malformed
  | fuel + 1, table, marks => do
      let path ← key
      expect ['=']
      skipBlanks
      let value ← value depth fuel
      if marks.isClosed path then malformed
      let name := path.getLastD ""
      match table.modify? false (·.add? name value) path.dropLast with
      | none => malformed
      | some table =>
          skipBlanks
          match ← peek with
          | some '\x7d' =>
              skip 1
              return table
          | some ',' =>
              skip 1
              skipBlanks
              entries depth fuel table (marks.addValue path value)
          | _ => malformed

end

end Reader

/-- A document that has been read in part. The marks of the tables opened by dotted keys count from
the next heading on. -/
structure Document where
  root : Table := []
  marks : Marks := []
  pending : List Key := []
  heading : Key := []

namespace Document

open Reader

/-- Reads an entry. -/
def entry (document : Document) : Reader Document := do
  let path ← key
  expect ['=']
  skipBlanks
  let value ← value 0 (2 * (← get).length + 4)
  let name := path.getLastD ""
  let parent := document.heading ++ path.dropLast
  let through := (List.range (path.length - 1)).map fun k ↦ document.heading ++ path.take (k + 1)
  if through.any document.marks.isOpened || document.marks.isClosed parent then malformed
  match document.root.modify? true (·.add? name value) parent with
  | none => malformed
  | some root =>
      return { document with
        root
        marks := document.marks.addValue (document.heading ++ path) value
        pending := through ++ document.pending }

/-- Reads the heading of a table. -/
def tableHeading (document : Document) : Reader Document := do
  let path ← key
  if document.marks.isOpened path || document.marks.isClosed path then malformed
  match document.root.modify? true some path with
  | none => malformed
  | some root =>
      expect [']']
      return { document with root, marks := document.marks.add path .opened, heading := path }

/-- Reads the heading of an element of an array. The element begins without marks. -/
def elementHeading (document : Document) : Reader Document := do
  let path ← key
  if document.marks.isClosed path then malformed
  match document.root.modify? true (Table.addElement? (path.getLastD "")) path.dropLast with
  | none => malformed
  | some root =>
      expect [']', ']']
      let marks := (document.marks.clear path).add path .opened
      return { document with root, marks, heading := path }

/-- Reads a heading of either sort. -/
def anyHeading (document : Document) : Reader Document := do
  let marks := document.pending.map (·, Mark.opened) ++ document.marks
  let document := { document with marks, pending := [] }
  if ← startsWith ['[', '['] then
    skip 2
    skipBlanks
    elementHeading document
  else
    skip 1
    skipBlanks
    tableHeading document

/-- Reads the statements up to the end. -/
def statements : Nat → Document → Reader Table
  | 0, _ => malformed
  | fuel + 1, document => do
      skipBlanks
      let document ← match ← peek with
        | none => pure document
        | some c =>
            if startsKey c then entry document
            else if c == '[' then anyHeading document
            else pure document
      skipBlanks
      skipComment
      match ← peek with
      | none => return document.root
      | some '\n' =>
          skip 1
          statements fuel document
      | some _ => malformed

end Document

/-- Turns each carriage return before a line feed into nothing. -/
def joinLineEnds (done : List Char) : List Char → List Char
  | [] => done.reverse
  | '\r' :: '\n' :: rest => joinLineEnds ('\n' :: done) rest
  | c :: rest => joinLineEnds (c :: done) rest

def parse (text : String) : Except Error Table :=
  let text := joinLineEnds [] text.toList
  ((Document.statements (text.length + 2) {}).run text).map Prod.fst

end Accumulator.Toml
