/-!
Line ends. Files and the standard input may end their lines by a line feed, a carriage return or
both; once read, a line ends by a line feed.
-/

set_option autoImplicit false
set_option relaxedAutoImplicit false

namespace Accumulator.Text

/-- Turns each carriage return, with the line feed behind it if there is one, into a line feed. -/
def unifyLineEndsOnto : List Char → List Char → List Char
  | done, [] => done.reverse
  | done, '\r' :: '\n' :: rest => unifyLineEndsOnto ('\n' :: done) rest
  | done, '\r' :: rest => unifyLineEndsOnto ('\n' :: done) rest
  | done, c :: rest => unifyLineEndsOnto (c :: done) rest

def unifyLineEnds (text : List Char) : List Char := unifyLineEndsOnto [] text

/-- The lines of a text that are known to be complete. A carriage return at the very end is not known
to be a whole line end, so it completes nothing. -/
def completeLines (text : List Char) : List Char :=
  let backwards := match text.reverse with
    | '\r' :: rest => rest
    | backwards => backwards
  (backwards.dropWhile fun c ↦ c != '\n' && c != '\r').reverse

end Accumulator.Text
