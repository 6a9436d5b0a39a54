/-!
Control sequences of a terminal: an escape character and an opening bracket, then any parameters,
any intermediate characters, and one final character that says what to do. The three ranges of ASCII
do not meet. To what is no terminal these sequences mean nothing, so a text that goes elsewhere is
shown without them.
-/

set_option autoImplicit false
set_option relaxedAutoImplicit false

namespace Accumulator.Text

def isParameter (c : Char) : Bool := '0' ≤ c && c ≤ '?'

def isIntermediate (c : Char) : Bool := ' ' ≤ c && c ≤ '/'

def isFinal (c : Char) : Bool := '@' ≤ c && c ≤ '~'

/-- What follows the control sequence at the start of a text, if there is one. -/
def afterControlSequence? : List Char → Option (List Char)
  | '\x1b' :: '[' :: rest =>
      match (rest.dropWhile isParameter).dropWhile isIntermediate with
      | c :: after => if isFinal c then some after else none
      | [] => none
  | _ => none

theorem length_of_afterControlSequence? {text after : List Char}
    (h : afterControlSequence? text = some after) : after.length < text.length := by
  unfold afterControlSequence? at h
  split at h
  · rename_i rest
    have hdrop : ((rest.dropWhile isParameter).dropWhile isIntermediate).length ≤ rest.length :=
      ((List.dropWhile_sublist _).trans (List.dropWhile_sublist _)).length_le
    split at h
    · rename_i heq
      split at h
      · cases h
        simp only [heq, List.length_cons] at hdrop ⊢
        omega
      · cases h
    · cases h
  · cases h

/-- The text with all its control sequences left out. -/
def withoutControlSequences : List Char → List Char
  | [] => []
  | c :: rest =>
      match _h : afterControlSequence? (c :: rest) with
      | some after => withoutControlSequences after
      | none => c :: withoutControlSequences rest
termination_by text => text.length
decreasing_by
  · exact length_of_afterControlSequence? ‹_›
  · simp

end Accumulator.Text
