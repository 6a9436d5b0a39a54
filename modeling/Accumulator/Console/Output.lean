/-!
The output of a machine: the text written so far. An output may refuse any of its writes; one that
it refuses leaves no text, and counts as a write all the same, so that a later one may succeed.
-/

set_option autoImplicit false
set_option relaxedAutoImplicit false

namespace Accumulator

structure Output where
  written : String := ""
  /-- How many writes there were. -/
  writes : Nat := 0
  /-- Whether a write is refused, by the number of those before it. -/
  refuses : Nat → Bool := fun _ ↦ false

namespace Output

/-- An output that takes so many writes and refuses all later ones. -/
def taking (limit : Nat) : Output := { refuses := fun writes ↦ limit ≤ writes }

/-- The output after one more write, and whether the text was taken. The write and the flush that
follows it are one: an output that takes the text is assumed to be flushed without a failure. -/
def write (output : Output) (text : String) : Output × Bool :=
  if output.refuses output.writes then ({ output with writes := output.writes + 1 }, false)
  else ({ output with written := output.written ++ text, writes := output.writes + 1 }, true)

theorem write_of_accepting {output : Output} (h : output.refuses output.writes = false)
    (text : String) :
    output.write text =
      ({ output with written := output.written ++ text, writes := output.writes + 1 }, true) := by
  unfold write
  rw [h]
  rfl

theorem write_of_refusing {output : Output} (h : output.refuses output.writes = true)
    (text : String) :
    output.write text = ({ output with writes := output.writes + 1 }, false) := by
  unfold write
  rw [h]
  rfl

theorem written_write (output : Output) (text : String) :
    (output.write text).1.written =
      if (output.write text).2 then output.written ++ text else output.written := by
  unfold write
  split <;> rfl

@[simp] theorem refuses_write (output : Output) (text : String) :
    (output.write text).1.refuses = output.refuses := by
  unfold write
  split <;> rfl

theorem write_accepted (output : Output) (text : String) :
    (output.write text).2 = !output.refuses output.writes := by
  unfold write
  split <;> simp_all

end Output

end Accumulator
