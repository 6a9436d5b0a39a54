import Accumulator.Machine.Run
import Accumulator.Path
import Accumulator.Toml.Value

/-!
Settings of a run: what the registers hold at the start, where the program is, whether steps are
traced, how many there may be, and whether the log tells details. They are laid over one another in
updates; an update changes what it gives and leaves the rest.

The trace and the limit are kept as they were written. Whether a trace counts as on, and whether a
limit can be compared with a number of steps, is asked of the value when it is used.
-/

set_option autoImplicit false
set_option relaxedAutoImplicit false

namespace Accumulator

structure Settings where
  registers : List Value := List.replicate 8 (.int 0)
  source : Option Path := none
  trace : Toml.Value := .boolean false
  maxSteps : Option Toml.Value := none
  verbose : Bool := false

namespace Settings

/-- What is to change; `none` leaves a field as it is. -/
structure Update where
  registers : Option (List Value) := none
  source : Option Path := none
  trace : Option Toml.Value := none
  maxSteps : Option Toml.Value := none
  verbose : Option Bool := none

def update (settings : Settings) (changes : Update) : Settings where
  registers := changes.registers.getD settings.registers
  source := changes.source <|> settings.source
  trace := changes.trace.getD settings.trace
  maxSteps := changes.maxSteps <|> settings.maxSteps
  verbose := changes.verbose.getD settings.verbose

/-- Two updates as one: the second is laid over the first. -/
def Update.append (first second : Update) : Update where
  registers := second.registers <|> first.registers
  source := second.source <|> first.source
  trace := second.trace <|> first.trace
  maxSteps := second.maxSteps <|> first.maxSteps
  verbose := second.verbose <|> first.verbose

instance : Append Update := ⟨Update.append⟩

theorem update_append (settings : Settings) (first second : Update) :
    settings.update (first ++ second) = (settings.update first).update second := by
  rcases first with ⟨r, s, t, m, v⟩
  rcases second with ⟨r', s', t', m', v'⟩
  cases r' <;> cases s' <;> cases t' <;> cases m' <;> cases v' <;> rfl

def isTraced (settings : Settings) : Bool := settings.trace.isTrue

/-- The number of steps that the settings allow. A truth value is a number, a text is none. -/
def budget (settings : Settings) : Budget :=
  match settings.maxSteps with
  | none => .unlimited
  | some (.integer n) => .limited (.integer (.int n))
  | some (.boolean b) => .limited (.integer (.bool b))
  | some (.float x) => .limited (.fractional x)
  | some _ => .incomparable

end Settings

end Accumulator
