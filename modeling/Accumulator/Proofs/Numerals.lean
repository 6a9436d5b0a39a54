import Accumulator.Console.TokenReader
import Accumulator.Proofs.Printing

/-!
Integers as tokens. The decimal text of an integer, if it is short enough to have one, is a token
that denotes that integer.
-/

set_option autoImplicit false
set_option relaxedAutoImplicit false

namespace Accumulator

open Assembly (read_toDigits isDigit_of_mem_toDigits)

namespace Numeral

theorem all_isDigit_toDigits (n : Nat) : (Nat.toDigits 10 n).all isDigit = true :=
  List.all_eq_true.mpr fun _ ↦ isDigit_of_mem_toDigits

theorem isEmpty_toDigits (n : Nat) : (Nat.toDigits 10 n).isEmpty = false :=
  List.isEmpty_eq_false_iff.mpr Nat.toDigits_ne_nil

/-- The text of a natural number has no sign. -/
theorem split?_toDigits (n : Nat) :
    split? (Nat.toDigits 10 n) = some (false, Nat.toDigits 10 n) := by
  have hsome := isEmpty_toDigits n
  have hall := all_isDigit_toDigits n
  cases hdigits : Nat.toDigits 10 n with
  | nil =>
    rw [hdigits] at hsome
    contradiction
  | cons c digits =>
    rw [hdigits] at hall
    have hc := List.all_eq_true.mp hall c List.mem_cons_self
    have hminus : c ≠ '-' := by
      rintro rfl
      contradiction
    have hplus : c ≠ '+' := by
      rintro rfl
      contradiction
    unfold split?
    simp [hminus, hplus, hall]

theorem split?_minus_toDigits (n : Nat) :
    split? ('-' :: Nat.toDigits 10 n) = some (true, Nat.toDigits 10 n) := by
  unfold split?
  simp [isEmpty_toDigits, all_isDigit_toDigits]

theorem toList_natCast (n : Nat) : (toString (n : Int)).toList = Nat.toDigits 10 n :=
  Nat.toList_repr

theorem toList_negSucc (n : Nat) :
    (toString (Int.negSucc n)).toList = '-' :: Nat.toDigits 10 (n + 1) := by
  rw [Int.toString_eq_repr, Int.repr, String.toList_append, Nat.toList_repr]
  rfl

theorem toList_toString_ne_nil (n : Int) : (toString n).toList ≠ [] := by
  cases n with
  | ofNat m =>
    rw [Int.ofNat_eq_natCast, toList_natCast]
    exact Nat.toDigits_ne_nil
  | negSucc m =>
    rw [toList_negSucc]
    exact List.cons_ne_nil _ _

/-- The text of an integer holds digits, and perhaps a sign. -/
theorem eq_minus_or_isDigit_of_mem {n : Int} {c : Char} (h : c ∈ (toString n).toList) :
    c = '-' ∨ isDigit c = true := by
  cases n with
  | ofNat m =>
    rw [Int.ofNat_eq_natCast, toList_natCast] at h
    exact Or.inr (isDigit_of_mem_toDigits h)
  | negSucc m =>
    rw [toList_negSucc] at h
    exact (List.mem_cons.mp h).imp_right isDigit_of_mem_toDigits

end Numeral

/-- The text of an integer is read as that integer. -/
theorem TokenReader.integer_toString {n : Int} (hshort : n.natAbs < Numeral.bound) :
    integer (toString n) = .ok n := by
  unfold integer
  cases n with
  | ofNat m =>
    have hread : Numeral.read (Nat.toDigits 10 m) = .ok m := read_toDigits hshort
    rw [Int.ofNat_eq_natCast, Numeral.toList_natCast, Numeral.split?_toDigits]
    simp only [hread]
    rfl
  | negSucc m =>
    have hread : Numeral.read (Nat.toDigits 10 (m + 1)) = .ok (m + 1) := read_toDigits hshort
    rw [Numeral.toList_negSucc, Numeral.split?_minus_toDigits]
    simp only [hread]
    rfl

end Accumulator
