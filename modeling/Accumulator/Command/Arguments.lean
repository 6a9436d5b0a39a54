import Accumulator.Files
import Accumulator.Numeral
import Accumulator.Text.DecimalDigit

/-!
Command-line arguments. Options and positional arguments mix freely. A value may be the next
argument, whatever it looks like, or be attached: to a long option behind an equality sign, to a
short one directly. Short options without a value may share one dash. After a double dash all
arguments are positional.

What arguments stand for, a number or a path at which there is something, is asked of them one by
one; the first that stands for nothing decides how the command line fails.
-/

set_option autoImplicit false
set_option relaxedAutoImplicit false

namespace Accumulator.Command

/-- An option by its long name and, if it has one, its letter. -/
structure OptionForm where
  name : String
  letter : Option Char := none
  takesValue : Bool

/-- An option as given, with its value if it takes one. -/
structure Given where
  name : String
  value : Option String := none
  deriving DecidableEq, Repr

structure Arguments where
  options : List Given := []
  positional : List String := []
  deriving DecidableEq, Repr

/-- What one argument gives: options, the last of which may lack its value. -/
structure Reading where
  options : List Given := []
  awaiting : Option String := none

/-- The options behind one dash. The first that takes a value takes all the rest, if there is any
rest. -/
def readLetters (forms : List OptionForm) (done : List Given) : List Char → Option Reading
  | [] => some { options := done.reverse }
  | letter :: rest =>
      match forms.find? (·.letter == some letter) with
      | none => none
      | some form =>
          if !form.takesValue then readLetters forms ({ name := form.name } :: done) rest
          else if rest.isEmpty then some { options := done.reverse, awaiting := some form.name }
          else
            let last := { name := form.name, value := some (String.ofList rest) }
            some { options := (last :: done).reverse }

/-- An argument that begins with a dash. An argument with two dashes is a long option or nothing. -/
def readOption (forms : List OptionForm) (argument : List Char) : Option Reading :=
  let name := String.ofList (argument.takeWhile (· != '='))
  let attached := argument.dropWhile (· != '=')
  match forms.find? (·.name == name) with
  | some form =>
      if attached.isEmpty then
        if form.takesValue then some { awaiting := some name } else some { options := [{ name }] }
      else if form.takesValue then
        some { options := [{ name, value := some (String.ofList (attached.drop 1)) }] }
      else none
  | none =>
      match argument with
      | '-' :: '-' :: _ => none
      | _ :: letters => readLetters forms [] letters
      | [] => none

namespace Arguments

def giving (given : List Given) (arguments : Arguments) : Arguments :=
  { arguments with options := given ++ arguments.options }

/-- The arguments of a command line, unless an option is unknown, lacks a value or has one too
many. -/
def parse (forms : List OptionForm) : List String → Option Arguments
  | [] => some {}
  | "--" :: rest => some { positional := rest }
  | argument :: rest =>
      if argument.startsWith "-" && argument != "-" then
        match readOption forms argument.toList with
        | none => none
        | some { options, awaiting := none } => (parse forms rest).map (giving options)
        | some { options, awaiting := some name } =>
            match rest with
            | [] => none
            | value :: rest =>
                (parse forms rest).map (giving (options ++ [{ name, value := some value }]))
      else
        (parse forms rest).map fun arguments ↦
          { arguments with positional := argument :: arguments.positional }

/-- The options given, each once, in the order in which they are first given. -/
def names (arguments : Arguments) : List String :=
  arguments.options.foldl
    (fun names given ↦ if names.contains given.name then names else names ++ [given.name]) []

/-- The option is given at least once. -/
def has (arguments : Arguments) (name : String) : Bool := arguments.options.any (·.name == name)

/-- The values of an option, in order. -/
def values (arguments : Arguments) (name : String) : List String :=
  arguments.options.filterMap fun given ↦ if given.name == name then given.value else none

/-- The value that counts of an option that is not meant to be repeated: the last. -/
def value? (arguments : Arguments) (name : String) : Option String :=
  (arguments.values name).getLast?

end Arguments

/-- Blanks around a number that is otherwise written in ASCII. -/
def isAsciiBlank (c : Char) : Bool := c == ' ' || (0x09 ≤ c.toNat && c.toNat ≤ 0x0d)

/-- A character of a number in ASCII: blanks and decimal digits of all scripts have a form there. -/
def asciiForm (c : Char) : Char :=
  if c.toNat < 0x7f then c
  else if Text.isBlank c then ' '
  else
    match Text.digitValue? c with
    | some d => Char.ofNat ('0'.toNat + d)
    | none => c

/-- The sign and the digits of an integer: a sign may stand before the digits, underscores between
them, blanks around both. -/
def integerDigits? (text : String) : Option (Bool × List Char) :=
  let text := (text.toList.map asciiForm).dropWhile isAsciiBlank
  let text := (text.reverse.dropWhile isAsciiBlank).reverse
  let (negative, text) := match text with
    | '-' :: rest => (true, rest)
    | '+' :: rest => (false, rest)
    | rest => (false, rest)
  match Numeral.grouped? Numeral.isDigit text with
  | some (digits, []) => some (negative, digits)
  | _ => none

/-- Why a command line cannot be followed. -/
inductive LineError where
  /-- It is no line of the command. -/
  | usage
  /-- A path in it cannot even be looked up. -/
  | unreadable (path : Path) (error : ReadError)
  deriving DecidableEq, Repr

/-- The integer that an argument stands for. -/
def integer (argument : String) : Except LineError Int :=
  match integerDigits? argument with
  | none => .error .usage
  | some (negative, digits) =>
      match Numeral.read digits with
      | .ok n => .ok (Numeral.signed negative n)
      | .error _ => .error .usage

/-- The path that an argument stands for, if there is something at it. A path that ends in a slash
is one of a directory. -/
def presentPath (files : Files) (argument : String) : Except LineError Path :=
  let path := Path.ofText argument
  let isUsable := argument != "" && argument.utf8ByteSize ≤ Files.maxPathSize
  let isOfDirectory := argument.endsWith "/" || argument.endsWith "/."
  match files.bytes path with
  | .error .nulCharacter => .error (.unreadable path .nulCharacter)
  | .error .isDirectory => if isUsable then .ok path else .error .usage
  | .ok _ => if isUsable && !isOfDirectory then .ok path else .error .usage
  | .error _ => .error .usage

end Accumulator.Command
