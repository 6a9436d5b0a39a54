import Accumulator.Text.Hexadecimal
import Accumulator.Toml.Value

/-!
Numbers and moments of settings files. Underscores may stand between digits. A decimal integer has
the limit of all numerals; one written in base 2, 8 or 16 has none.
-/

set_option autoImplicit false
set_option relaxedAutoImplicit false

namespace Accumulator.Toml

open Text (hexDigit?)

/-- An integer of another base, behind its leading zero. -/
def based? (text : List Char) : Option (Int × List Char) := do
  let (base, rest) ← match text with
    | 'x' :: rest => some (16, rest)
    | 'o' :: rest => some (8, rest)
    | 'b' :: rest => some (2, rest)
    | _ => none
  let (digits, rest) ← Numeral.grouped? (fun c ↦ (hexDigit? c).any (· < base)) rest
  let n := digits.foldl (fun n c ↦ base * n + (hexDigit? c).getD 0) 0
  return ((n : Nat), rest)

/-- A sign, if there is one. -/
def sign (text : List Char) : Bool × List Char :=
  match text with
  | '-' :: rest => (true, rest)
  | '+' :: rest => (false, rest)
  | rest => (false, rest)

/-- The integer part of a decimal: a single zero, or digits that do not start with one. -/
def whole? (text : List Char) : Option (List Char × List Char) :=
  match text with
  | '0' :: rest => some (['0'], rest)
  | text => Numeral.grouped? Numeral.isDigit text

/-- The digits behind a point, if there are any. -/
def fraction (text : List Char) : List Char × List Char :=
  match text with
  | '.' :: rest => (Numeral.grouped? Numeral.isDigit rest).getD ([], text)
  | _ => ([], text)

/-- A power of ten, if there is one. -/
def exponent? (text : List Char) : Option (Int × List Char) := do
  let rest ← match text with
    | 'e' :: rest | 'E' :: rest => some rest
    | _ => none
  let (negative, rest) := sign rest
  let (digits, rest) ← Numeral.grouped? Numeral.isDigit rest
  return (Numeral.signed negative (Numeral.ofDigits digits), rest)

def decimal? (text : List Char) : Option (Except Numeral.Overlong Value × List Char) := do
  let (negative, rest) := sign text
  let (whole, rest) ← whole? rest
  let (fraction, rest) := fraction rest
  match exponent? rest with
  | none =>
      if fraction.isEmpty then
        return ((Numeral.read whole).map fun n ↦ .integer (Numeral.signed negative n), rest)
      else
        let x := Decimal.Binary64.ofDecimal negative (Numeral.ofDigits (whole ++ fraction))
          (-(fraction.length : Int))
        return (.ok (.float x), rest)
  | some (exponent, rest) =>
      let x := Decimal.Binary64.ofDecimal negative (Numeral.ofDigits (whole ++ fraction))
        (exponent - fraction.length)
      return (.ok (.float x), rest)

/-- Infinity and the value that is no number. -/
def special? (text : List Char) : Option (Value × List Char) :=
  let (negative, rest) := sign text
  match rest with
  | 'i' :: 'n' :: 'f' :: rest => some (.float (.infinite negative), rest)
  | 'n' :: 'a' :: 'n' :: rest => some (.float .nan, rest)
  | _ => none

def number? (text : List Char) : Option (Except Numeral.Overlong Value × List Char) :=
  let based := match text with
    | '0' :: rest => based? rest
    | _ => none
  match based with
  | some (n, rest) => some (.ok (.integer n), rest)
  | none => decimal? text <|> (special? text).map fun (value, rest) ↦ (.ok value, rest)

/-- A number of exactly so many digits that lies in a range. -/
def field? (width low high : Nat) (text : List Char) : Option (Nat × List Char) :=
  let digits := text.take width
  let n := Numeral.ofDigits digits
  if digits.length == width && digits.all Numeral.isDigit && low ≤ n && n ≤ high then
    some (n, text.drop width)
  else none

def char? (c : Char) (text : List Char) : Option (List Char) :=
  if text.head? == some c then some (text.drop 1) else none

def date? (text : List Char) : Option (Date × List Char) := do
  let (year, rest) ← field? 4 0 9999 text
  let (month, rest) ← field? 2 1 12 (← char? '-' rest)
  let (day, rest) ← field? 2 1 31 (← char? '-' rest)
  return ({ year, month, day }, rest)

/-- A time of day. Of a fraction of a second six digits count. -/
def clock? (text : List Char) : Option (Clock × List Char) := do
  let (hour, rest) ← field? 2 0 23 text
  let (minute, rest) ← field? 2 0 59 (← char? ':' rest)
  let (second, rest) ← field? 2 0 59 (← char? ':' rest)
  let whole := ({ hour, minute, second, microsecond := 0 }, rest)
  match rest with
  | '.' :: rest =>
      let digits := rest.takeWhile Numeral.isDigit
      if digits.isEmpty then some whole
      else
        let counted := digits.take 6
        let microsecond := Numeral.ofDigits counted * Nat.pow 10 (6 - counted.length)
        some ({ hour, minute, second, microsecond }, rest.drop digits.length)
  | _ => some whole

/-- An offset from universal time, in minutes. -/
def offset? (text : List Char) : Option (Int × List Char) :=
  match text with
  | 'Z' :: rest | 'z' :: rest => some (0, rest)
  | c :: rest =>
      if c == '+' || c == '-' then do
        let (hours, rest) ← field? 2 0 23 rest
        let (minutes, rest) ← field? 2 0 59 (← char? ':' rest)
        return (Numeral.signed (c == '-') (60 * hours + minutes), rest)
      else none
  | [] => none

/-- The time of day behind a date, with its offset if it has one. -/
def clockAfterDate? (text : List Char) : Option ((Clock × Option Int) × List Char) := do
  let rest ← char? 'T' text <|> char? 't' text <|> char? ' ' text
  let (clock, rest) ← clock? rest
  match offset? rest with
  | some (offset, rest) => return ((clock, some offset), rest)
  | none => return ((clock, none), rest)

/-- A moment; there is no result for a date that does not exist. -/
def moment? (text : List Char) : Option (Option Moment × List Char) :=
  match date? text with
  | some (date, rest) =>
      match clockAfterDate? rest with
      | some ((clock, offset), rest) =>
          some (if date.isValid then some (.dateTime date clock offset) else none, rest)
      | none => some (if date.isValid then some (.date date) else none, rest)
  | none => (clock? text).map fun (clock, rest) ↦ (some (.time clock), rest)

end Accumulator.Toml
