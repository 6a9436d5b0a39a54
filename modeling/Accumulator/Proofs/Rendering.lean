import Accumulator.Machine
import Accumulator.Proofs.Attempts

/-!
Which machines have a snapshot: those all of whose numbers have a text (`Machine.renders_iff`), be
they in registers, in the accumulator, in the program counter or in instructions.
-/

set_option autoImplicit false
set_option relaxedAutoImplicit false

namespace Accumulator

/-- A table with one line an entry can be written if each entry can. -/
theorem exists_lines_iff {α : Type} (entries : List α)
    (text : α → Except Numeral.Overlong String) (line : α × Nat → String → String) :
    (∃ lines, (entries.zipIdx.mapM fun entry ↦ text entry.1 >>= fun shown ↦
        pure (line entry shown)) = Except.ok lines) ↔
      ∀ entry ∈ entries, ∃ shown, text entry = .ok shown := by
  have hfirsts := List.forall_mem_map (f := Prod.fst) (l := entries.zipIdx)
    (P := fun entry ↦ ∃ shown, text entry = .ok shown)
  rw [List.zipIdx_map_fst] at hfirsts
  rw [exists_mapM_eq_ok_iff, hfirsts]
  simp only [exists_bind_pure_iff]

theorem Registers.exists_text_iff (registers : Registers) :
    (∃ text, registers.text = .ok text) ↔
      (∀ value ∈ registers.r, ∃ text, value.text = .ok text) ∧
        (∃ text, registers.acc.text = .ok text) ∧ ∃ text, registers.pc.text = .ok text := by
  rw [← exists_lines_iff registers.r Value.text fun entry shown ↦ s!"r[{entry.2}] = {shown}"]
  unfold Registers.text
  constructor
  · rintro ⟨text, h⟩
    obtain ⟨lines, hlines, h⟩ := bind_eq_ok_iff.mp h
    obtain ⟨acc, hacc, h⟩ := bind_eq_ok_iff.mp h
    obtain ⟨pc, hpc, -⟩ := bind_eq_ok_iff.mp h
    exact ⟨⟨lines, hlines⟩, ⟨acc, hacc⟩, pc, hpc⟩
  · rintro ⟨⟨lines, hlines⟩, ⟨acc, hacc⟩, pc, hpc⟩
    exact ⟨_, bind_eq_ok_iff.mpr ⟨lines, hlines, bind_eq_ok_iff.mpr
      ⟨acc, hacc, bind_eq_ok_iff.mpr ⟨pc, hpc, rfl⟩⟩⟩⟩

theorem Program.exists_listing_iff (program : Program) (pc : Value) :
    (∃ lines, program.listing pc = .ok lines) ↔
      ∀ instruction ∈ program.instructions.toList, ∃ text, instruction.text = .ok text :=
  exists_lines_iff program.instructions.toList Instruction.text fun entry shown ↦
    s!"{if pc.toInt = entry.2 then marker else addressText entry.2} {shown}"

namespace Machine

/-- The state has a snapshot. -/
def Renders (machine : Machine) : Prop := ∃ text, machine.snapshot = .ok text

theorem renders_iff (machine : Machine) :
    machine.Renders ↔
      ((∀ value ∈ machine.registers.r, ∃ text, value.text = .ok text) ∧
        (∃ text, machine.registers.acc.text = .ok text) ∧
        ∃ text, machine.registers.pc.text = .ok text) ∧
      ∀ instruction ∈ machine.program.instructions.toList, ∃ text, instruction.text = .ok text := by
  rw [← Registers.exists_text_iff,
    ← Program.exists_listing_iff machine.program machine.registers.pc]
  unfold Renders snapshot
  constructor
  · rintro ⟨text, h⟩
    obtain ⟨registers, hregisters, h⟩ := bind_eq_ok_iff.mp h
    obtain ⟨listing, hlisting, -⟩ := bind_eq_ok_iff.mp h
    exact ⟨⟨registers, hregisters⟩, listing, hlisting⟩
  · rintro ⟨⟨registers, hregisters⟩, listing, hlisting⟩
    rw [hregisters, hlisting]
    exact ⟨_, rfl⟩

end Machine

end Accumulator
