import Accumulator.Text.Ranges

/-!
Blanks: the white space of Unicode together with the four information separators. Words are the
longest rows of other characters, so splitting loses exactly the blanks.
-/

set_option autoImplicit false
set_option relaxedAutoImplicit false

namespace Accumulator.Text

def blanks : Ranges :=
  [(0x09, 0x0d), (0x1c, 0x20), (0x85, 0x85), (0xa0, 0xa0), (0x1680, 0x1680), (0x2000, 0x200a),
   (0x2028, 0x2029), (0x202f, 0x202f), (0x205f, 0x205f), (0x3000, 0x3000)]

def isBlank (c : Char) : Bool := blanks.contains c

/-- The text without the blanks at its two ends. -/
def strip (text : List Char) : List Char :=
  ((text.dropWhile isBlank).reverse.dropWhile isBlank).reverse

/-- The words of a text, of which the current one, given in reverse, is still open. -/
def wordsFrom (isSeparator : Char → Bool) : List Char → List Char → List (List Char)
  | [], [] => []
  | word, [] => [word.reverse]
  | word, c :: rest =>
      if isSeparator c then
        if word.isEmpty then wordsFrom isSeparator [] rest
        else word.reverse :: wordsFrom isSeparator [] rest
      else wordsFrom isSeparator (c :: word) rest

/-- The longest rows of characters that are no separators. -/
def wordsBy (isSeparator : Char → Bool) (text : List Char) : List (List Char) :=
  wordsFrom isSeparator [] text

def words (text : List Char) : List (List Char) := wordsBy isBlank text

end Accumulator.Text
