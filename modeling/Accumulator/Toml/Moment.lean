/-!
Dates and times of day. A time may have an offset from universal time only together with a date.

Standing alone, a moment is shown in the international format; inside a collection it is shown as
the expression that builds it.
-/

set_option autoImplicit false
set_option relaxedAutoImplicit false

namespace Accumulator.Toml

structure Date where
  year : Nat
  month : Nat
  day : Nat
  deriving DecidableEq, Repr

structure Clock where
  hour : Nat
  minute : Nat
  second : Nat
  microsecond : Nat
  deriving DecidableEq, Repr

/-- A decimal text of at least so many digits. -/
def padded (width n : Nat) : String :=
  let digits := Nat.toDigits 10 n
  String.ofList (List.replicate (width - digits.length) '0' ++ digits)

namespace Date

def isLeapYear (year : Nat) : Bool := year % 4 == 0 && (year % 100 != 0 || year % 400 == 0)

def daysInMonth (year month : Nat) : Nat :=
  match month with
  | 2 => if isLeapYear year then 29 else 28
  | 4 | 6 | 9 | 11 => 30
  | _ => 31

/-- The date exists, in the Gregorian calendar carried back to year 1. -/
def isValid (date : Date) : Bool :=
  1 ≤ date.year && 1 ≤ date.month && date.month ≤ 12 && 1 ≤ date.day
    && date.day ≤ daysInMonth date.year date.month

/-- The number of days from the beginning of year 1 to a date. -/
def dayNumber (date : Date) : Nat :=
  let before := date.year - 1
  let inMonths :=
    (List.range (date.month - 1)).foldl (fun days k ↦ days + daysInMonth date.year (k + 1)) 0
  365 * before + before / 4 - before / 100 + before / 400 + inMonths + date.day - 1

def text (date : Date) : String :=
  s!"{padded 4 date.year}-{padded 2 date.month}-{padded 2 date.day}"

def expression (date : Date) : String := s!"datetime.date({date.year}, {date.month}, {date.day})"

end Date

namespace Clock

def microseconds (clock : Clock) : Nat :=
  ((clock.hour * 60 + clock.minute) * 60 + clock.second) * 1000000 + clock.microsecond

def text (clock : Clock) : String :=
  let fraction := if clock.microsecond == 0 then "" else s!".{padded 6 clock.microsecond}"
  s!"{padded 2 clock.hour}:{padded 2 clock.minute}:{padded 2 clock.second}{fraction}"

/-- The arguments of the expression for a clock; trailing zeros of seconds are left out. -/
def arguments (clock : Clock) : List Nat :=
  [clock.hour, clock.minute]
    ++ if clock.microsecond != 0 then [clock.second, clock.microsecond]
      else if clock.second != 0 then [clock.second] else []

def expression (clock : Clock) : String :=
  let arguments := ", ".intercalate (clock.arguments.map toString)
  s!"datetime.time({arguments})"

end Clock

/-- An offset from universal time, in minutes. -/
def offsetText (offset : Int) : String :=
  let minutes := offset.natAbs
  let mark := if offset < 0 then "-" else "+"
  s!"{mark}{padded 2 (minutes / 60)}:{padded 2 (minutes % 60)}"

/-- A negative offset counts back from a whole day. -/
def offsetExpression (offset : Int) : String :=
  if offset == 0 then "datetime.timezone.utc"
  else
    let days := if offset < 0 then "days=-1, " else ""
    let seconds := (offset * 60) % 86400
    s!"datetime.timezone(datetime.timedelta({days}seconds={seconds}))"

inductive Moment where
  | date (day : Date)
  | time (clock : Clock)
  | dateTime (day : Date) (clock : Clock) (offset : Option Int)
  deriving DecidableEq, Repr

namespace Moment

def text : Moment → String
  | .date d => d.text
  | .time clock => clock.text
  | .dateTime d clock none => s!"{d.text} {clock.text}"
  | .dateTime d clock (some offset) => s!"{d.text} {clock.text}{offsetText offset}"

def expression : Moment → String
  | .date d => d.expression
  | .time clock => clock.expression
  | .dateTime d clock offset =>
      let numbers := ([d.year, d.month, d.day] ++ clock.arguments).map toString
      let zone := offset.map fun offset ↦ s!"tzinfo={offsetExpression offset}"
      let arguments := ", ".intercalate (numbers ++ zone.toList)
      s!"datetime.datetime({arguments})"

/-- What moments are compared by: only moments of one sort have an order, and those with an offset
are a sort of their own. -/
def order : Moment → Nat × Int
  | .date d => (0, d.dayNumber)
  | .time clock => (1, clock.microseconds)
  | .dateTime d clock none => (2, d.dayNumber * 86400000000 + clock.microseconds)
  | .dateTime d clock (some offset) =>
      (3, d.dayNumber * 86400000000 + clock.microseconds - offset * 60000000)

end Moment

end Accumulator.Toml
