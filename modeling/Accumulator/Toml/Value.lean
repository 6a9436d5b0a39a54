import Accumulator.Decimal.Shortest
import Accumulator.Numeral
import Accumulator.Text.Quoted
import Accumulator.Toml.Moment

/-!
Values of settings files, and their text in messages. A table lists its entries in the order in
which they were made. Texts stand bare when shown alone and quoted inside a collection. A value has
no text if it nests others too deep or holds an integer that is too long; what a reader from left to
right meets first counts.
-/

set_option autoImplicit false
set_option relaxedAutoImplicit false

namespace Accumulator.Toml

inductive Value where
  | string (text : String)
  | integer (n : Int)
  | float (x : Decimal.Binary64)
  | boolean (b : Bool)
  | moment (m : Moment)
  | array (elements : List Value)
  | table (entries : List (String × Value))
  deriving Repr

abbrev Table := List (String × Value)

namespace Value

instance : Inhabited Value := ⟨.boolean false⟩

def booleanText (b : Bool) : String := if b then "True" else "False"

/-- Why a value has no text. -/
inductive Unshown where
  /-- Values are nested too deep. -/
  | nested
  | overlong (cause : Numeral.Overlong)
  deriving DecidableEq, Repr

/-- How many values a text may show one inside the other. The bound stands for a printer that runs
out of stack; the number is fitted to one size of the stack and one depth of the call. -/
def maxLevel : Nat := 987

mutual

/-- The text of a value inside a collection, on the given level. -/
def nestedText (level : Nat) (value : Value) : Except Unshown String :=
  if maxLevel < level then .error .nested
  else
    match value with
    | .string text => .ok (Text.quoted text)
    | .integer n => (Numeral.text n).mapError .overlong
    | .float x => .ok x.text
    | .boolean b => .ok (booleanText b)
    | .moment m => .ok m.expression
    | .array elements => do
        return "[" ++ ", ".intercalate (← elementTexts (level + 1) elements) ++ "]"
    | .table entries => do
        return String.singleton '\x7b' ++ ", ".intercalate (← entryTexts (level + 1) entries)
          ++ String.singleton '\x7d'

def elementTexts (level : Nat) : List Value → Except Unshown (List String)
  | [] => .ok []
  | value :: rest => do return (← nestedText level value) :: (← elementTexts level rest)

def entryTexts (level : Nat) : List (String × Value) → Except Unshown (List String)
  | [] => .ok []
  | (key, value) :: rest => do
      return s!"{Text.quoted key}: {← nestedText level value}" :: (← entryTexts level rest)

end

/-- The text of a value that is shown alone. -/
def text : Value → Except Unshown String
  | .string text => .ok text
  | .moment m => .ok m.text
  | value => nestedText 1 value

/-- Empty values, zeros and `false` do not count as true; all others do. -/
def isTrue : Value → Bool
  | .string text => text != ""
  | .integer n => n != 0
  | .float (.finite _ mantissa _) => mantissa != 0
  | .float _ => true
  | .boolean b => b
  | .moment _ => true
  | .array elements => !elements.isEmpty
  | .table entries => !entries.isEmpty

end Value

end Accumulator.Toml
