import Accumulator.Numeral

/-!
Readers of settings text. A reader takes characters from the front of the text and fails for good
when they do not fit.
-/

set_option autoImplicit false
set_option relaxedAutoImplicit false

namespace Accumulator.Toml

inductive Error where
  | malformed
  /-- Values are nested too deep. -/
  | nested
  | overlong (cause : Numeral.Overlong)
  deriving DecidableEq, Repr

abbrev Reader (α : Type) := StateT (List Char) (Except Error) α

def isBlank (c : Char) : Bool := c == ' ' || c == '\t'

/-- A control character other than the tab. -/
def isControl (c : Char) : Bool := (c.toNat < 0x20 && c != '\t') || c.toNat == 0x7f

namespace Reader

def malformed {α : Type} : Reader α := throw .malformed

def peek : Reader (Option Char) := do return (← get).head?

def startsWith (text : List Char) : Reader Bool := do return text.isPrefixOf (← get)

def skip (n : Nat) : Reader Unit := modify (·.drop n)

def skipWhile (p : Char → Bool) : Reader Unit := modify (·.dropWhile p)

def skipBlanks : Reader Unit := skipWhile isBlank

def expect (text : List Char) : Reader Unit := do
  if ← startsWith text then skip text.length else malformed

/-- Takes what a recogniser finds at the front of the text. -/
def take? {α : Type} (recognise : List Char → Option (α × List Char)) : Reader (Option α) := do
  match recognise (← get) with
  | some (a, rest) =>
      set rest
      return some a
  | none => return none

/-- Skips a comment, if there is one, up to the end of its line. -/
def skipComment : Reader Unit := do
  if (← peek) == some '#' then
    let text ← get
    if (text.takeWhile (· != '\n')).any isControl then malformed
    skipWhile (· != '\n')

end Reader

end Accumulator.Toml
