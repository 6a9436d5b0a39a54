import Accumulator.Proofs.Acceptance
import Accumulator.Proofs.Relocation
import Accumulator.Proofs.Tracing

/-!
Names of labels are names only. Under an injective renaming the label table stays the same but for
the names in it, so a list is accepted or rejected as before, and of two faults the same one is
found first (`Program.ofList_renamed_of_error`). The renamed program has its instructions at the
same addresses, which is all that a machine depends on (`step_renamed`); only a trace shows the
names, and whether it fails does not depend on them.
-/

set_option autoImplicit false
set_option relaxedAutoImplicit false

namespace Accumulator

variable {rename : String → String}

/-! ### The label table -/

namespace Labels

/-- The table with other names. -/
def renamed (rename : String → String) (labels : Labels) : Labels :=
  labels.map fun (name, address) ↦ (rename name, address)

theorem renamed_cons (label : String × Nat) (rest : Labels) :
    renamed rename (label :: rest) = (rename label.1, label.2) :: rest.renamed rename := rfl

theorem ofList_renamed (instructions : List Instruction) :
    ofList (instructions.map (·.renamed rename)) = (ofList instructions).renamed rename := by
  unfold ofList renamed
  rw [List.zipIdx_map, List.filterMap_map, List.map_filterMap]
  refine congrArg (instructions.zipIdx.filterMap ·) (funext fun entry ↦ ?_)
  simp only [Function.comp_apply, Prod.map_fst, Prod.map_snd, id, Instruction.name?_renamed,
    Option.map_map]
  rfl

section

variable (hinjective : Function.Injective rename)

include hinjective

theorem lookup_renamed (labels : Labels) (name : String) :
    (labels.renamed rename).lookup (rename name) = labels.lookup name := by
  induction labels with
  | nil => rfl
  | cons label rest ih =>
    have hsame : (rename name == rename label.1) = (name == label.1) := by
      rw [Bool.eq_iff_iff, beq_iff_eq, beq_iff_eq, hinjective.eq_iff]
    rw [renamed_cons, List.lookup_cons, List.lookup_cons, hsame]
    cases name == label.1 with
    | true => rfl
    | false => exact ih

theorem repeatedAfter?_renamed (seen labels : Labels) :
    repeatedAfter? (seen.renamed rename) (labels.renamed rename) =
      (repeatedAfter? seen labels).map fun (name, addresses) ↦ (rename name, addresses) := by
  induction labels generalizing seen with
  | nil => rfl
  | cons label rest ih =>
    rw [renamed_cons, repeatedAfter?, repeatedAfter?, lookup_renamed hinjective]
    cases seen.lookup label.1 with
    | some first => rfl
    | none => exact ih (label :: seen)

theorem repeated?_ofList_renamed (instructions : List Instruction) :
    (ofList (instructions.map (·.renamed rename))).repeated? =
      (ofList instructions).repeated?.map fun (name, addresses) ↦ (rename name, addresses) := by
  rw [ofList_renamed]
  exact repeatedAfter?_renamed hinjective [] (ofList instructions)

theorem undefined?_ofList_renamed (instructions : List Instruction) :
    (ofList (instructions.map (·.renamed rename))).undefined?
        (instructions.map (·.renamed rename)) =
      ((ofList instructions).undefined? instructions).map rename := by
  rw [ofList_renamed]
  unfold undefined?
  rw [List.findSome?_map, List.map_findSome?]
  refine congrArg (instructions.findSome? ·) (funext fun instruction ↦ ?_)
  rw [Function.comp_apply, Function.comp_apply, Instruction.target?_renamed, Option.filter_map]
  refine congrArg (Option.map rename)
    (congrArg (instruction.target?.filter ·) (funext fun name ↦ ?_))
  rw [Function.comp_apply, lookup_renamed hinjective]

end

end Labels

/-! ### Acceptance -/

/-- The fault with another name for the label that it is about. -/
def Fault.renamed (rename : String → String) : Fault → Fault
  | .labelNotFound name => .labelNotFound (rename name)
  | .duplicateLabel name first second => .duplicateLabel (rename name) first second
  | fault => fault

namespace Program

variable {instructions : List Instruction} {program other : Program}

theorem ofList_renamed_of_error (hinjective : Function.Injective rename) {fault : Fault}
    (h : ofList instructions = .error fault) :
    ofList (instructions.map (·.renamed rename)) = .error (fault.renamed rename) := by
  rw [ofList_eq_error_iff] at h ⊢
  rw [Labels.repeated?_ofList_renamed hinjective, Labels.undefined?_ofList_renamed hinjective]
  rcases h with ⟨name, first, second, hrepeated, rfl⟩ | ⟨hnone, name, hundefined, rfl⟩
  · rw [hrepeated]
    exact Or.inl ⟨_, _, _, rfl, rfl⟩
  · rw [hnone, hundefined]
    exact Or.inr ⟨rfl, _, rfl, rfl⟩

theorem exists_ofList_renamed (hinjective : Function.Injective rename)
    (h : ofList instructions = .ok program) :
    ∃ other, ofList (instructions.map (·.renamed rename)) = .ok other := by
  obtain ⟨hnone, hdefined⟩ := exists_ofList_iff_tables.mp ⟨program, h⟩
  refine exists_ofList_iff_tables.mpr ?_
  rw [Labels.repeated?_ofList_renamed hinjective, Labels.undefined?_ofList_renamed hinjective,
    hnone, hdefined]
  exact ⟨rfl, rfl⟩

/-- The other program has the same instructions but for the names of labels. -/
def IsRenaming (rename : String → String) (program other : Program) : Prop :=
  other.instructions = program.instructions.map (·.renamed rename)

theorem isRenaming_of_ofList (hprogram : ofList instructions = .ok program)
    (hother : ofList (instructions.map (·.renamed rename)) = .ok other) :
    IsRenaming rename program other := by
  rw [IsRenaming, instructions_of_ofList hprogram, instructions_of_ofList hother, List.map_toArray]

theorem IsRenaming.embeds (h : IsRenaming rename program other) :
    program.Embeds id rename other := by
  intro i instruction hat
  rw [h, id, Array.getElem?_map, hat]
  rfl

theorem IsRenaming.size (h : IsRenaming rename program other) : other.size = program.size := by
  rw [Program.size, h, Array.size_map, Program.size]

end Program

/-! ### What a trace makes of the names -/

theorem Instruction.fate_text_renamed (i : Instruction) :
    fate (i.renamed rename).text = fate i.text := by
  cases i <;> rfl

theorem Program.IsRenaming.fate_listing {program other : Program}
    (h : IsRenaming rename program other) (pc : Value) :
    fate (other.listing pc) = fate (program.listing pc) := by
  unfold listing
  rw [h, Array.toList_map, List.zipIdx_map, List.mapM_map]
  refine fate_mapM_congr _ fun entry _ ↦ ?_
  exact (fate_bind_pure _ _).trans (entry.1.fate_text_renamed.trans (fate_bind_pure _ _).symm)

namespace Machine

variable {machine other : Machine}

/-- Whether a machine has a snapshot does not depend on the names of its labels. -/
theorem fate_snapshot_onto {program : Program}
    (h : Program.IsRenaming rename machine.program program) :
    fate (machine.onto program).snapshot = fate machine.snapshot := by
  have hlisting := h.fate_listing machine.registers.pc
  have hregisters : (machine.onto program).registers = machine.registers := rfl
  have hprogram : (machine.onto program).program = program := rfl
  unfold snapshot
  rw [hregisters, hprogram]
  cases machine.registers.text with
  | error cause => rfl
  | ok text =>
    calc fate (program.listing machine.registers.pc >>= _)
        = fate (program.listing machine.registers.pc) := fate_bind_pure _ _
      _ = fate (machine.program.listing machine.registers.pc) := hlisting
      _ = _ := (fate_bind_pure _ _).symm

theorem deliver_snd_congr (htrace : other.trace = machine.trace)
    (hsnapshot : fate other.snapshot = fate machine.snapshot) :
    other.deliver.2 = machine.deliver.2 := by
  unfold deliver
  rw [htrace]
  cases machine.trace with
  | none => rfl
  | some sink =>
    cases hother : other.snapshot with
    | error cause =>
      cases hmachine : machine.snapshot with
      | error cause' =>
        rw [hother, hmachine] at hsnapshot
        cases hsnapshot
        rfl
      | ok text =>
        rw [hother, hmachine] at hsnapshot
        contradiction
    | ok text =>
      cases hmachine : machine.snapshot with
      | error cause =>
        rw [hother, hmachine] at hsnapshot
        contradiction
      | ok text' => cases sink <;> rfl

/-! ### Machines on renamed programs -/

/-- The programs differ in the names of labels and the machines in nothing but what they have
reported. -/
structure Alike (rename : String → String) (machine other : Machine) : Prop where
  programs : Program.IsRenaming rename machine.program other.program
  trace : other.trace = machine.trace
  bare : other.bare = machine.bare.onto other.program

theorem Alike.halted_eq (h : Alike rename machine other) : other.halted = machine.halted := by
  have hhalted : other.bare.halted = (machine.bare.onto other.program).halted := by rw [h.bare]
  exact hhalted

theorem Alike.steps_eq (h : Alike rename machine other) : other.steps = machine.steps := by
  have hsteps : other.bare.steps = (machine.bare.onto other.program).steps := by rw [h.bare]
  exact hsteps

theorem Alike.fate_snapshot (h : Alike rename machine other) :
    fate other.snapshot = fate machine.snapshot := by
  have hbare : Program.IsRenaming rename machine.bare.program other.program := h.programs
  calc fate other.snapshot = fate other.bare.snapshot := rfl
    _ = fate (machine.bare.onto other.program).snapshot := by rw [h.bare]
    _ = fate machine.bare.snapshot := fate_snapshot_onto hbare
    _ = fate machine.snapshot := rfl

theorem Alike.attempt (h : Alike rename machine other) :
    Alike rename machine.attempt.1 other.attempt.1 ∧ other.attempt.2 = machine.attempt.2 := by
  have hembeds : machine.bare.program.Embeds id rename other.program := h.programs.embeds
  have hsize : other.program.size = machine.bare.program.size := h.programs.size
  have hattempts := attempt_onto hembeds fun _ ↦ hsize
  rw [← h.bare, bare_attempt, bare_attempt] at hattempts
  obtain ⟨hafter, hresult⟩ := Prod.ext_iff.mp hattempts
  have hframe := machine.frame_attempt
  have hframe' := other.frame_attempt
  refine ⟨⟨?_, ?_, ?_⟩, hresult⟩
  · rw [hframe.program, hframe'.program]
    exact h.programs
  · rw [hframe.trace, hframe'.trace]
    exact h.trace
  · rw [hframe'.program]
    exact hafter

theorem Alike.advance (h : Alike rename machine other) (displacement : Int) :
    Alike rename (machine.advance displacement) (other.advance displacement) := by
  obtain ⟨_, hadvance⟩ := machine.exists_journal_advance displacement
  obtain ⟨_, hadvance'⟩ := other.exists_journal_advance displacement
  refine ⟨?_, ?_, ?_⟩
  · rw [hadvance, hadvance']
    exact h.programs
  · rw [hadvance, hadvance']
    exact h.trace
  · rw [bare_advance, bare_advance, bare_moved, bare_moved, h.bare, hadvance']
    rfl

/-- A step does the same whatever the names of labels are, be it traced or not. -/
theorem Alike.step (h : Alike rename machine other) :
    Alike rename machine.step.1 other.step.1 ∧ other.step.2 = machine.step.2 := by
  have hembeds : machine.bare.program.Embeds id rename other.program := h.programs.embeds
  have hsize : other.program.size = machine.bare.program.size := h.programs.size
  have hbare : other.step.1.bare = machine.step.1.bare.onto other.program := by
    rw [bare_step, h.bare, step_onto hembeds rfl fun _ _ ↦ hsize, bare_step machine]
    rfl
  refine ⟨⟨?_, ?_, ?_⟩, ?_⟩
  · rw [machine.step_keeps.1, other.step_keeps.1]
    exact h.programs
  · rw [machine.trace_step, other.trace_step, h.trace]
  · rw [other.step_keeps.1]
    exact hbare
  · obtain ⟨hafter, hresult⟩ := h.attempt
    rcases machine.step_cases with ⟨hhalted, hstep⟩ | ⟨after, failure, hrunning, hattempt, hstep⟩ |
      ⟨after, displacement, hrunning, hattempt, hstep⟩
    · rw [hstep, step_of_halted (h.halted_eq.trans hhalted)]
    · rw [hattempt] at hresult
      rw [hstep, step_of_running (h.halted_eq.trans hrunning), ← Prod.eta other.attempt, hresult]
    · rw [hattempt] at hresult hafter
      have hadvance := hafter.advance displacement
      rw [hstep, step_of_running (h.halted_eq.trans hrunning), ← Prod.eta other.attempt, hresult]
      simp only
      rw [commit_snd, commit_snd, hadvance.halted_eq,
        deliver_snd_congr hadvance.trace hadvance.fate_snapshot]

/-- An injective renaming of all labels, in their definitions and in jumps, changes nothing but the
names. A list that is rejected is rejected for the same reason; one that is accepted is accepted,
and machines on the two programs are, but for their reports, in the same state after any number of
steps, with the same results, and make the same runs. -/
theorem label_names_do_not_matter (rename : String → String)
    (hinjective : Function.Injective rename) (instructions : List Instruction) :
    ((∃ other, Program.ofList (instructions.map (·.renamed rename)) = .ok other) ↔
      ∃ program, Program.ofList instructions = .ok program) ∧
    (∀ fault, Program.ofList instructions = .error fault →
      Program.ofList (instructions.map (·.renamed rename)) = .error (fault.renamed rename)) ∧
    ∀ program other, Program.ofList instructions = .ok program →
      Program.ofList (instructions.map (·.renamed rename)) = .ok other →
      ∀ registers input output trace,
        let machine := start program registers input output trace
        let twin := start other registers input output trace
        (∀ n, (twin.afterSteps n).bare = { (machine.afterSteps n).bare with program := other } ∧
          (twin.afterSteps n).step.2 = (machine.afterSteps n).step.2) ∧
        ∀ fuel budget,
          (twin.run fuel budget).1.bare =
              { (machine.run fuel budget).1.bare with program := other } ∧
            (twin.run fuel budget).2 = (machine.run fuel budget).2 := by
  refine ⟨⟨?_, ?_⟩, ?_, ?_⟩
  · rintro ⟨other, hother⟩
    cases hlist : Program.ofList instructions with
    | ok program => exact ⟨program, rfl⟩
    | error fault =>
      rw [Program.ofList_renamed_of_error hinjective hlist] at hother
      contradiction
  · rintro ⟨program, hprogram⟩
    exact Program.exists_ofList_renamed hinjective hprogram
  · intro fault hfault
    exact Program.ofList_renamed_of_error hinjective hfault
  · intro program other hprogram hother registers input output trace machine twin
    have halike : Alike rename machine twin :=
      ⟨Program.isRenaming_of_ofList hprogram hother, rfl, rfl⟩
    have hkeeps : ∀ n, (twin.afterSteps n).program = other :=
      afterSteps_preserves (fun before hbefore ↦ before.step_keeps.1.trans hbefore) twin rfl
    constructor
    · intro n
      have hafter : Alike rename (machine.afterSteps n) (twin.afterSteps n) :=
        afterSteps_lockstep (fun _ _ h ↦ h.step.1) halike n
      have hbare := hafter.bare
      rw [hkeeps n] at hbare
      exact ⟨hbare, hafter.step.2⟩
    · intro fuel budget
      obtain ⟨hafter, hresult⟩ := runFrom_lockstep (fun _ _ h ↦ h.step) (fun _ _ h ↦ h.steps_eq)
        budget machine.steps fuel halike
      have hprogram : (twin.run fuel budget).1.program = other :=
        runFrom_preserves (fun before hbefore ↦ before.step_keeps.1.trans hbefore) budget
          twin.steps fuel twin rfl
      have hbare : (twin.run fuel budget).1.bare =
          (machine.run fuel budget).1.bare.onto (twin.run fuel budget).1.program := hafter.bare
      rw [hprogram] at hbare
      exact ⟨hbare, hresult⟩

/-- With an `x` before every name a jump is taken as before, a jump to nowhere is rejected for the
longer name, and of a repeated label the same two addresses are reported. -/
theorem label_names_do_not_matter_behind_x :
    let rename : String → String := ("x" ++ ·)
    let sound : List Instruction := [.jumpIfZero "end", .label "end", .halt]
    let undefined : List Instruction := [.label "a", .jump "b"]
    let repeated : List Instruction := [.label "a", .halt, .label "a", .jump "b"]
    (∃ program other, Program.ofList sound = .ok program ∧
      Program.ofList (sound.map (·.renamed rename)) = .ok other ∧
      ((start program { r := [] }).run 3 .unlimited).2 = some (.ok 3) ∧
      ((start other { r := [] }).run 3 .unlimited).2 = some (.ok 3)) ∧
    Program.ofList (undefined.map (·.renamed rename)) = .error (.labelNotFound "xb") ∧
    Program.ofList (repeated.map (·.renamed rename)) = .error (.duplicateLabel "xa" 0 2) := by
  intro rename sound undefined repeated
  have hinjective : Function.Injective rename := fun _ _ ↦ (String.append_right_inj "x").mp
  let program : Program :=
    ⟨sound.toArray, [("end", 1)], rfl, by decide, Labels.targets_of_undefined? rfl⟩
  have hprogram : Program.ofList sound = .ok program := rfl
  have hrun : ((start program { r := [] }).run 3 .unlimited).2 = some (.ok 3) := rfl
  obtain ⟨haccepted, -, halike⟩ := label_names_do_not_matter rename hinjective sound
  obtain ⟨other, hother⟩ := haccepted.mpr ⟨program, hprogram⟩
  refine ⟨⟨program, other, hprogram, hother, hrun, ?_⟩, ?_, ?_⟩
  · rw [((halike program other hprogram hother { r := [] } {} {} none).2 3 .unlimited).2, hrun]
  · exact (label_names_do_not_matter rename hinjective undefined).2.1 (.labelNotFound "b") rfl
  · exact (label_names_do_not_matter rename hinjective repeated).2.1 (.duplicateLabel "a" 0 2) rfl

end Machine

end Accumulator
