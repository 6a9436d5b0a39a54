import Accumulator.Failure
import Accumulator.Text.Blank
import Accumulator.Text.Lines

/-!
The input of a machine: tokens, taken one at a time. They come ready made, or from a text, which is
then read a line at a time and only when no token of an earlier line is left, so that a person at a
console is never asked for more than is needed.
-/

set_option autoImplicit false
set_option relaxedAutoImplicit false

namespace Accumulator

/-- The tokens read and not yet taken, and the text not yet read, if there is a text at all. Where
the end of the text is a keyboard interrupt rather than an end, `interrupts` is set. -/
structure TokenReader where
  pending : List String := []
  unread : Option (List Char) := none
  interrupts : Bool := false
  deriving DecidableEq, Repr

namespace TokenReader

def ofTokens (tokens : List String) : TokenReader := { pending := tokens }

def ofText (text : String) : TokenReader := { unread := some text.toList }

/-- A reader of what is typed at a console, whose line ends may be of any sort. A keyboard interrupt
in place of the end takes with it the line that was being typed. -/
def ofConsole (typed : String) (interrupts : Bool) : TokenReader :=
  let lines := if interrupts then Text.completeLines typed.toList else typed.toList
  { unread := some (Text.unifyLineEnds lines), interrupts }

/-- What follows the first line of a text. -/
def afterLine (text : List Char) : List Char := (text.dropWhile (· != '\n')).drop 1

theorem length_afterLine_lt {text : List Char} (h : text ≠ []) :
    (afterLine text).length < text.length := by
  have hdrop : (text.dropWhile (· != '\n')).length ≤ text.length :=
    (List.dropWhile_sublist _).length_le
  have hpos := List.length_pos_iff.mpr h
  rw [afterLine, List.length_drop]
  omega

/-- The words of the first line that has any, and what follows that line. -/
def nextWords (text : List Char) : List String × List Char :=
  if _h : text = [] then ([], [])
  else
    match Text.words (text.takeWhile (· != '\n')) with
    | [] => nextWords (afterLine text)
    | words => (words.map String.ofList, afterLine text)
termination_by text.length
decreasing_by exact length_afterLine_lt ‹_›

/-- The next token, if there is one, and the reader without it. -/
def next (reader : TokenReader) : Option String × TokenReader :=
  match reader.pending, reader.unread with
  | token :: rest, _ => (some token, { reader with pending := rest })
  | [], none => (none, reader)
  | [], some text =>
      match nextWords text with
      | (token :: rest, unread) =>
          (some token, { reader with pending := rest, unread := some unread })
      | ([], unread) => (none, { reader with unread := some unread })

/-- The integer that a token denotes, the whole token being an optional sign and ASCII digits. -/
def integer (token : String) : Except Failure Int :=
  match Numeral.split? token.toList with
  | none => .error (.ofFault (.inputParseError (some token)))
  | some (negative, digits) =>
      match Numeral.read digits with
      | .ok n => .ok (Numeral.signed negative n)
      | .error cause => .error (.overlong cause)

/-- Takes the next token as an integer. A token that is none is taken all the same. -/
def nextInteger (reader : TokenReader) : Except Failure Int × TokenReader :=
  match reader.next with
  | (some token, after) => (integer token, after)
  | (none, after) =>
      if after.interrupts then (.error .interrupt, after)
      else (.error (.ofFault (.inputParseError none)), after)

/-- The reader and all the text it has not read, which counts as read from then on. -/
def rest? (reader : TokenReader) : Option (String × TokenReader) :=
  reader.unread.map fun text ↦ (String.ofList text, { reader with unread := some [] })

/-- The reader with more text behind what it has not read. -/
def feed (reader : TokenReader) (text : String) : TokenReader :=
  { reader with unread := reader.unread.map (· ++ text.toList) }

end TokenReader

end Accumulator
