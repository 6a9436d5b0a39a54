import Accumulator.Fault

/-!
The register file: numbered registers, whose number never changes, an accumulator and a program
counter.
-/

set_option autoImplicit false
set_option relaxedAutoImplicit false

namespace Accumulator

structure Registers where
  r : List Value
  acc : Value := .int 0
  pc : Value := .int 0
  deriving DecidableEq, Repr

namespace Registers

def size (registers : Registers) : Nat := registers.r.length

/-- The position of a register. No index counts from the end, so a negative one is out of range. -/
def checkIndex (registers : Registers) (index : Value) : Except Fault Nat :=
  match index.index? registers.size with
  | some i => .ok i
  | none => .error (.registerIndexOutOfRange index registers.size)

theorem checkIndex_eq_ok_iff (registers : Registers) (index : Value) (i : Nat) :
    registers.checkIndex index = .ok i ↔ index.toInt = i ∧ i < registers.size := by
  rw [← Value.index?_eq_some_iff]
  unfold checkIndex
  split <;> simp_all

/-- The value of a register, given an index. -/
def load (registers : Registers) (index : Value) : Except Fault Value := do
  return registers.r.getD (← registers.checkIndex index) default

/-- Puts a value into a register, given an index. -/
def store (registers : Registers) (index value : Value) : Except Fault Registers := do
  return { registers with r := registers.r.set (← registers.checkIndex index) value }

section

variable {registers : Registers} {index : Value} {i : Nat}

theorem load_of_inRange (h : index.index? registers.size = some i) :
    registers.load index = .ok (registers.r.getD i default) := by
  unfold load checkIndex
  rw [h]
  rfl

theorem load_of_outOfRange (h : index.index? registers.size = none) :
    registers.load index = .error (.registerIndexOutOfRange index registers.size) := by
  unfold load checkIndex
  rw [h]
  rfl

theorem store_of_inRange (h : index.index? registers.size = some i) (value : Value) :
    registers.store index value = .ok { registers with r := registers.r.set i value } := by
  unfold store checkIndex
  rw [h]
  rfl

theorem store_of_outOfRange (h : index.index? registers.size = none) (value : Value) :
    registers.store index value = .error (.registerIndexOutOfRange index registers.size) := by
  unfold store checkIndex
  rw [h]
  rfl

/-- Storing replaces one of the numbered registers and leaves the rest of the register file. -/
theorem exists_set_of_store {after : Registers} {value : Value}
    (h : registers.store index value = .ok after) :
    ∃ i, after = { registers with r := registers.r.set i value } := by
  cases hi : index.index? registers.size with
  | none =>
    rw [store_of_outOfRange hi] at h
    contradiction
  | some i =>
    rw [store_of_inRange hi] at h
    cases h
    exact ⟨i, rfl⟩

theorem size_store {after : Registers} {value : Value}
    (h : registers.store index value = .ok after) : after.size = registers.size := by
  obtain ⟨i, rfl⟩ := exists_set_of_store h
  exact List.length_set

end

/-- The two register files agree, values being compared as numbers. -/
def sameAs (a b : Registers) : Bool :=
  a.r.map Value.toInt == b.r.map Value.toInt && a.acc.sameNumber b.acc && a.pc.sameNumber b.pc

def text (registers : Registers) : Except Numeral.Overlong String := do
  let numbered ← registers.r.zipIdx.mapM fun (value, i) ↦ do
    return s!"r[{i}] = {← value.text}"
  let last := [s!"acc = {← registers.acc.text}", s!"pc = {← registers.pc.text}"]
  return "\n".intercalate ("REGISTERS:" :: numbered ++ last)

end Registers

end Accumulator
