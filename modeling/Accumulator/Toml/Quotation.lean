import Accumulator.Text.Hexadecimal
import Accumulator.Toml.Reader

/-!
Strings and keys of settings files. Basic strings stand between double quotes and have escapes,
literal strings stand between single quotes and have none; both may run over several lines between
tripled quotes. A key is a row of parts with points between them, each a bare word or a string on
one line.
-/

set_option autoImplicit false
set_option relaxedAutoImplicit false

namespace Accumulator.Toml

open Text (hexDigit?)

/-- The character with a hexadecimal code of so many digits, which no surrogate has. -/
def codedChar? (digits : Nat) (text : List Char) : Option (Char × List Char) := do
  let code ← (text.take digits).mapM hexDigit?
  if code.length != digits then none
  let n := code.foldl (fun n d ↦ 16 * n + d) 0
  if n < 0xd800 || (0xdfff < n && n < 0x110000) then some (Char.ofNat n, text.drop digits) else none

/-- What an escape in a basic string stands for; the backslash is gone already. On several lines a
backslash at the end of a line hides all white space up to the next visible character. -/
def escape? (multiline : Bool) (text : List Char) : Option (List Char × List Char) :=
  match text with
  | [] => none
  | c :: rest =>
      if multiline && (isBlank c || c == '\n') then
        match text.dropWhile isBlank with
        | [] => some ([], [])
        | '\n' :: rest => some ([], rest.dropWhile fun c ↦ isBlank c || c == '\n')
        | _ => none
      else
        let stands (c : Char) : Option (List Char × List Char) := some ([c], rest)
        match c with
        | 'b' => stands '\x08'
        | 't' => stands '\t'
        | 'n' => stands '\n'
        | 'f' => stands '\x0c'
        | 'r' => stands '\r'
        | '"' => stands '"'
        | '\\' => stands '\\'
        | 'u' => (codedChar? 4 rest).map fun (c, rest) ↦ ([c], rest)
        | 'U' => (codedChar? 8 rest).map fun (c, rest) ↦ ([c], rest)
        | _ => none

/-- A character that may not stand in a string. -/
def isIllegal (multiline : Bool) (c : Char) : Bool := isControl c && !(multiline && c == '\n')

/-- The content of a basic string, behind what is read already, in reverse, and what follows the
closing quotes. Each round takes a character at least, so the length of the text is fuel enough. -/
def basicContent? (multiline : Bool) : Nat → List Char → List Char →
    Option (List Char × List Char)
  | 0, _, _ => none
  | fuel + 1, done, text =>
      match text with
      | [] => none
      | '"' :: rest =>
          if multiline then
            match rest with
            | '"' :: '"' :: rest => some (done.reverse, rest)
            | _ => basicContent? multiline fuel ('"' :: done) rest
          else some (done.reverse, rest)
      | '\\' :: rest =>
          match escape? multiline rest with
          | some (content, rest) => basicContent? multiline fuel (content.reverse ++ done) rest
          | none => none
      | c :: rest =>
          if isIllegal multiline c then none else basicContent? multiline fuel (c :: done) rest

/-- The content of a literal string and what follows the closing quotes. -/
def literalContent? (multiline : Bool) (done : List Char) : List Char →
    Option (List Char × List Char)
  | [] => none
  | '\'' :: rest =>
      if multiline then
        match rest with
        | '\'' :: '\'' :: rest => some (done.reverse, rest)
        | rest => literalContent? multiline ('\'' :: done) rest
      else some (done.reverse, rest)
  | c :: rest =>
      if isIllegal multiline c then none else literalContent? multiline (c :: done) rest

/-- Up to two quotes directly behind the closing ones belong to the content. -/
def extraQuotes (quote : Char) (content rest : List Char) : List Char × List Char :=
  let extra := (rest.takeWhile (· == quote)).take 2
  (content ++ extra, rest.drop extra.length)

/-- A string on one line. -/
def lineString? (text : List Char) : Option (String × List Char) := do
  let (content, rest) ← match text with
    | '"' :: rest => basicContent? false (rest.length + 1) [] rest
    | '\'' :: rest => literalContent? false [] rest
    | _ => none
  return (String.ofList content, rest)

/-- A string on one line or, between tripled quotes, on several. A line end directly behind the
opening quotes does not count. -/
def string? (text : List Char) : Option (String × List Char) :=
  let body (rest : List Char) : List Char := match rest with
    | '\n' :: rest => rest
    | rest => rest
  match text with
  | '"' :: '"' :: '"' :: rest => do
      let (content, rest) ← basicContent? true (rest.length + 1) [] (body rest)
      let (content, rest) := extraQuotes '"' content rest
      return (String.ofList content, rest)
  | '\'' :: '\'' :: '\'' :: rest => do
      let (content, rest) ← literalContent? true [] (body rest)
      let (content, rest) := extraQuotes '\'' content rest
      return (String.ofList content, rest)
  | text => lineString? text

abbrev Key := List String

def isBareKeyChar (c : Char) : Bool := c.isAlphanum || c == '-' || c == '_'

def startsKey (c : Char) : Bool := isBareKeyChar c || c == '"' || c == '\''

namespace Reader

def keyPart : Reader String := do
  let text ← get
  if text.head?.any isBareKeyChar then
    skipWhile isBareKeyChar
    return String.ofList (text.takeWhile isBareKeyChar)
  else
    match ← take? lineString? with
    | some part => return part
    | none => malformed

/-- The parts of a key from the second on. -/
def keyParts : Nat → Reader Key
  | 0 => malformed
  | fuel + 1 => do
      skipBlanks
      if (← peek) == some '.' then
        skip 1
        skipBlanks
        let part ← keyPart
        return part :: (← keyParts fuel)
      else return []

def key : Reader Key := do
  let first ← keyPart
  return first :: (← keyParts ((← get).length + 1))

end Reader

end Accumulator.Toml
