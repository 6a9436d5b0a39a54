/-!
Tab stops. A tab becomes the spaces up to the next multiple of eight columns; a column is a
character, and line feeds and carriage returns begin a new row of columns.
-/

set_option autoImplicit false
set_option relaxedAutoImplicit false

namespace Accumulator.Text

def tabWidth : Nat := 8

/-- Expands what follows, from a given column on, behind what is done, which is in reverse. -/
def expandTabsFrom : Nat → List Char → List Char → List Char
  | _, done, [] => done.reverse
  | column, done, c :: rest =>
      if c == '\t' then
        let width := tabWidth - column % tabWidth
        expandTabsFrom (column + width) (List.replicate width ' ' ++ done) rest
      else if c == '\n' || c == '\r' then expandTabsFrom 0 (c :: done) rest
      else expandTabsFrom (column + 1) (c :: done) rest

def expandTabs (text : List Char) : List Char := expandTabsFrom 0 [] text

end Accumulator.Text
