import Accumulator.Program

/-!
The label table against the instruction list. A name has an address exactly if the instruction at
that address is the label of that name, and every jump of a program has an address to go to, which
is never its own: `Program.address_eq_ok_iff` and `Program.exists_address_of_target`.
-/

set_option autoImplicit false
set_option relaxedAutoImplicit false

namespace Accumulator

namespace Labels

/-- In a table without repeated names a look-up finds every entry. -/
theorem lookup_eq_some_iff {labels : Labels} (hnodup : (labels.map Prod.fst).Nodup)
    (name : String) (address : Nat) :
    labels.lookup name = some address ↔ (name, address) ∈ labels := by
  induction labels with
  | nil => simp
  | cons label rest ih =>
    obtain ⟨hfresh, hrest⟩ := List.nodup_cons.mp hnodup
    rw [List.lookup_cons]
    by_cases h : name = label.1
    · subst h
      have habsent : (label.1, address) ∉ rest := fun hmem ↦
        hfresh (List.mem_map.mpr ⟨_, hmem, rfl⟩)
      simp [habsent, Prod.ext_iff, eq_comm]
    · have hne : (name, address) ≠ label := fun heq ↦ h (congrArg Prod.fst heq)
      rw [beq_eq_false_iff_ne.mpr h]
      simp only [List.mem_cons, hne, false_or]
      exact ih hrest

end Labels

namespace Program

theorem address_eq_ok_iff (program : Program) (name : String) (address : Nat) :
    program.address name = .ok address ↔
      program.instructions[address]? = some (.label name) := by
  have htable : (name, address) ∈ program.labels ↔
      program.instructions[address]? = some (.label name) := by
    rw [program.labels_eq, Labels.mem_ofList, Array.getElem?_toList]
  rw [← htable, ← Labels.lookup_eq_some_iff program.names_nodup]
  unfold Program.address
  cases program.labels.lookup name with
  | none => simp
  | some found => simp

/-- The address of a label lies inside the program. -/
theorem lt_size_of_address {program : Program} {name : String} {address : Nat}
    (h : program.address name = .ok address) : address < program.size := by
  rw [address_eq_ok_iff] at h
  exact (Array.getElem?_eq_some_iff.mp h).1

/-- The target of a jump has an address. There stands a label, hence not the jump. -/
theorem exists_address_of_target {program : Program} {i : Nat} {instruction : Instruction}
    {target : String} (hat : program.instructions[i]? = some instruction)
    (htarget : instruction.target? = some target) :
    ∃ address, program.address target = .ok address ∧ address < program.size ∧ address ≠ i := by
  have hmem : instruction ∈ program.instructions.toList := by
    rw [← Array.getElem?_toList] at hat
    exact List.mem_of_getElem? hat
  have hdefined := program.targets_defined instruction hmem target htarget
  obtain ⟨label, hlabel, rfl⟩ := List.mem_map.mp hdefined
  have haddress : program.address label.1 = .ok label.2 := by
    unfold Program.address
    rw [(Labels.lookup_eq_some_iff program.names_nodup label.1 label.2).mpr hlabel]
  refine ⟨label.2, haddress, lt_size_of_address haddress, ?_⟩
  intro heq
  rw [address_eq_ok_iff, heq, hat] at haddress
  cases haddress
  contradiction

end Program

end Accumulator
