import Accumulator.Limit
import Accumulator.Text.Quoted

/-!
Faults of programs and of their execution, each with its cause. A fault's kind is a short name for
tools; its message is for people, and cannot be written if it would show an integer that has no
text.
-/

set_option autoImplicit false
set_option relaxedAutoImplicit false

namespace Accumulator

inductive Fault where
  | labelNotFound (name : String)
  | duplicateLabel (name : String) (first second : Int)
  | registerIndexOutOfRange (index : Value) (size : Int)
  | inputParseError (token : Option String)
  | pcOutOfRange (pc : Value) (length : Int)
  | stepLimitExceeded (limit : Limit)
  | syntaxError (message : String) (line : Option Int)
  deriving DecidableEq, Repr

namespace Fault

/-! The sentences of messages, around the texts of what they mention. -/

namespace Sentence

def labelNotFound (name : String) : String := s!"Expected label with name {name}"

def duplicateLabel (name first second : String) : String :=
  s!"Label {name} defined at {first} and {second}"

def registerIndexOutOfRange (index last : String) : String :=
  s!"Register r[{index}] out of range 0..{last}"

def endOfInput : String := "Unexpected end of input"

def noInteger (shown : String) : String := s!"Expected an integer, got {shown}"

def pcOutOfRange (pc length : String) : String :=
  s!"pc = {pc} outside program of {length} instructions"

def stepLimitExceeded (limit : String) : String := s!"No halt after {limit} steps"

def atLine (line message : String) : String := s!"Line {line}: {message}"

end Sentence

def kind : Fault → String
  | .labelNotFound _ => "label-not-found"
  | .duplicateLabel .. => "duplicate-label"
  | .registerIndexOutOfRange .. => "register-index-out-of-range"
  | .inputParseError _ => "input-parse-error"
  | .pcOutOfRange .. => "pc-out-of-range"
  | .stepLimitExceeded _ => "step-limit-exceeded"
  | .syntaxError .. => "syntax-error"

def message : Fault → Except Numeral.Overlong String
  | .labelNotFound name => .ok (Sentence.labelNotFound name)
  | .duplicateLabel name first second => do
      return Sentence.duplicateLabel name (← Numeral.text first) (← Numeral.text second)
  | .registerIndexOutOfRange index size => do
      return Sentence.registerIndexOutOfRange (← index.text) (← Numeral.text (size - 1))
  | .inputParseError none => .ok Sentence.endOfInput
  | .inputParseError (some token) => .ok (Sentence.noInteger (Text.quoted token))
  | .pcOutOfRange pc length => do
      return Sentence.pcOutOfRange (← pc.text) (← Numeral.text length)
  | .stepLimitExceeded limit => do return Sentence.stepLimitExceeded (← limit.text)
  | .syntaxError message none => .ok message
  | .syntaxError message (some line) => do return Sentence.atLine (← Numeral.text line) message

/-- The fault rejects a program before it is run. -/
def isRejection : Fault → Bool
  | .syntaxError .. | .labelNotFound _ | .duplicateLabel .. => true
  | _ => false

end Fault

end Accumulator
