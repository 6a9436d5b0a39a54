import Accumulator.Program

/-!
Which instruction lists make a program. The names of the label table are the names that labels
define, in order (`Labels.map_fst_ofList`). So a list is accepted exactly if no two of its labels
share a name and each of its jumps goes to the name of one of them (`Program.exists_ofList_iff`),
and otherwise it is rejected for a repeated label, or failing that for an undefined one
(`Program.ofList_eq_error_iff`).
-/

set_option autoImplicit false
set_option relaxedAutoImplicit false

namespace Accumulator

/-! ### The label table -/

namespace Labels

theorem map_fst_ofList (instructions : List Instruction) :
    (ofList instructions).map Prod.fst = instructions.filterMap Instruction.name? := by
  have hname (entry : Instruction × Nat) :
      (entry.1.name?.map fun name ↦ (name, entry.2)).map Prod.fst = entry.1.name? := by
    cases entry.1.name? <;> rfl
  calc (ofList instructions).map Prod.fst
      = instructions.zipIdx.filterMap (fun entry ↦ entry.1.name?) := by
        rw [ofList, List.map_filterMap]
        simp only [hname]
    _ = (instructions.zipIdx.map Prod.fst).filterMap Instruction.name? := by
        rw [List.filterMap_map]
        rfl
    _ = instructions.filterMap Instruction.name? := by rw [List.zipIdx_map_fst]

theorem mem_names_iff (instructions : List Instruction) (name : String) :
    name ∈ instructions.filterMap Instruction.name? ↔ .label name ∈ instructions := by
  rw [List.mem_filterMap]
  constructor
  · rintro ⟨instruction, hmem, hname⟩
    rw [(instruction.name?_eq_some_iff name).mp hname] at hmem
    exact hmem
  · intro hmem
    exact ⟨_, hmem, rfl⟩

theorem repeatedAfter?_eq_none_iff (seen labels : Labels) :
    repeatedAfter? seen labels = none ↔
      (labels.map Prod.fst).Nodup ∧ ∀ name ∈ labels.map Prod.fst, name ∉ seen.map Prod.fst := by
  refine ⟨nodup_of_repeatedAfter?, ?_⟩
  induction labels generalizing seen with
  | nil => exact fun _ ↦ rfl
  | cons label rest ih =>
    rintro ⟨hnodup, hseen⟩
    obtain ⟨hfresh, hrest⟩ := List.nodup_cons.mp hnodup
    obtain ⟨hfirst, hothers⟩ := List.forall_mem_cons.mp hseen
    rw [repeatedAfter?, (lookup_eq_none_iff seen label.1).mpr hfirst]
    refine ih (label :: seen) ⟨hrest, fun name hname hmem ↦ ?_⟩
    rcases List.mem_cons.mp hmem with rfl | hmem
    · exact hfresh hname
    · exact hothers name hname hmem

theorem repeated?_eq_none_iff (labels : Labels) :
    labels.repeated? = none ↔ (labels.map Prod.fst).Nodup := by
  rw [repeated?, repeatedAfter?_eq_none_iff, List.map_nil]
  exact and_iff_left fun name _ ↦ List.not_mem_nil

theorem undefined?_eq_none_iff (labels : Labels) (instructions : List Instruction) :
    labels.undefined? instructions = none ↔
      ∀ instruction ∈ instructions, ∀ target, instruction.target? = some target →
        target ∈ labels.map Prod.fst := by
  refine ⟨targets_of_undefined?, fun hdefined ↦ ?_⟩
  refine List.findSome?_eq_none_iff.mpr fun instruction hmem ↦ ?_
  cases htarget : instruction.target? with
  | none => rfl
  | some target =>
    have hlookup : labels.lookup target ≠ none := fun hnone ↦
      (lookup_eq_none_iff labels target).mp hnone (hdefined instruction hmem target htarget)
    rw [Option.filter_some, if_neg (by simpa using hlookup)]

end Labels

/-! ### Programs -/

/-- No two labels share a name, and every jump goes to a label. -/
structure WellLabelled (instructions : List Instruction) : Prop where
  nodup : (instructions.filterMap Instruction.name?).Nodup
  defined : ∀ instruction ∈ instructions, ∀ target, instruction.target? = some target →
    .label target ∈ instructions

namespace Program

variable {instructions : List Instruction}

/-- How a list is rejected: for a repeated label, or, where there is none, for an undefined one. -/
theorem ofList_eq_error_iff (fault : Fault) :
    ofList instructions = .error fault ↔
      (∃ name first second,
        (Labels.ofList instructions).repeated? = some (name, first, second) ∧
          fault = .duplicateLabel name first second) ∨
      ((Labels.ofList instructions).repeated? = none ∧
        ∃ name, (Labels.ofList instructions).undefined? instructions = some name ∧
          fault = .labelNotFound name) := by
  unfold ofList
  simp only
  split
  · rename_i name first second hrepeated
    rw [Except.error.injEq]
    constructor
    · rintro rfl
      exact Or.inl ⟨_, _, _, hrepeated, rfl⟩
    · rintro (⟨_, _, _, hsame, rfl⟩ | ⟨hnone, -⟩)
      · cases hrepeated.symm.trans hsame
        rfl
      · cases hrepeated.symm.trans hnone
  · rename_i hrepeated
    split
    · rename_i name hundefined
      simp [hrepeated, hundefined, eq_comm]
    · rename_i hundefined
      simp [hrepeated, hundefined]

theorem exists_ofList_iff_tables :
    (∃ program, ofList instructions = .ok program) ↔
      (Labels.ofList instructions).repeated? = none ∧
        (Labels.ofList instructions).undefined? instructions = none := by
  unfold ofList
  simp only
  split
  · rename_i hrepeated
    simp [hrepeated]
  · rename_i hrepeated
    split
    · rename_i hundefined
      simp [hundefined]
    · rename_i hundefined
      simp [hrepeated, hundefined]

/-- The well-labelled lists are those that make a program. -/
theorem exists_ofList_iff :
    (∃ program, ofList instructions = .ok program) ↔ WellLabelled instructions := by
  rw [exists_ofList_iff_tables, Labels.repeated?_eq_none_iff, Labels.undefined?_eq_none_iff]
  simp only [Labels.map_fst_ofList, Labels.mem_names_iff]
  exact ⟨fun ⟨hnodup, hdefined⟩ ↦ ⟨hnodup, hdefined⟩, fun h ↦ ⟨h.nodup, h.defined⟩⟩

end Program

end Accumulator
