import Accumulator.Assembly.SourceUnit

/-!
One pass over source units. What a unit issues does not depend on what was issued before it
(`SourceUnit.instructions_issue`): it is put behind that. So the one list that the units share is
made of the lists that they make by themselves, one after the other (`assemble_eq_flatten`), and a
unit by itself comes to what its items say (`SourceUnit.assemble_eq_of_items`).
-/

set_option autoImplicit false
set_option relaxedAutoImplicit false

namespace Accumulator.Assembly

/-! ### Items -/

section

variable {name : String} {source text : List Char} {items : List Item}
  {issued : Array Instruction}

theorem issueItems_of_known (h : items.findSome? Item.unknown? = none) :
    issueItems name source issued items =
      (issued ++ (items.filterMap Item.instruction?).toArray, .ok ()) := by
  induction items generalizing issued with
  | nil => rw [issueItems, List.filterMap_nil, Array.append_empty]
  | cons item rest ih =>
    cases item with
    | unknown text => contradiction
    | comment => exact ih h
    | overlong cause => exact ih h
    | instruction i =>
      have hpushed (list : List Instruction) :
          issued.push i ++ list.toArray = issued ++ (i :: list).toArray := by
        simp
      rw [issueItems, ih h, hpushed]
      rfl

theorem issueItems_of_unknown (h : items.findSome? Item.unknown? = some text) :
    (issueItems name source issued items).2 = .error (.fault (unknownCommand name source text)) := by
  induction items generalizing issued with
  | nil => contradiction
  | cons item rest ih =>
    cases item with
    | unknown other =>
      cases h
      rfl
    | comment => exact ih h
    | overlong cause => exact ih h
    | instruction i => exact ih h

end

theorem Pass.instructions_of_error {pass : Pass} {failure : Failure} (h : pass.2 = .error failure) :
    pass.instructions = .error failure := by
  obtain ⟨issued, result⟩ := pass
  cases h
  rfl

/-! ### Units -/

namespace SourceUnit

/-- What a unit issues stands behind what was issued before. A register number with too many digits
is refused wherever it stands, then the first unknown command is. -/
theorem instructions_issue_of_items (unit : SourceUnit) (issued : Array Instruction) :
    (unit.issue issued).instructions =
      match (items unit.source).findSome? Item.overlong? with
      | some cause => .error (.overlong cause)
      | none =>
          match (items unit.source).findSome? Item.unknown? with
          | some text => .error (.fault (unknownCommand unit.name unit.source text))
          | none => .ok (issued.toList ++ (items unit.source).filterMap Item.instruction?) := by
  dsimp only [issue]
  cases (items unit.source).findSome? Item.overlong? with
  | some cause => rfl
  | none =>
    cases hunknown : (items unit.source).findSome? Item.unknown? with
    | some text => exact Pass.instructions_of_error (issueItems_of_unknown hunknown)
    | none =>
      dsimp only
      rw [issueItems_of_known hunknown]
      exact congrArg Except.ok Array.toList_append

theorem assemble_eq_of_items (unit : SourceUnit) :
    unit.assemble = match (items unit.source).findSome? Item.overlong? with
      | some cause => .error (.overlong cause)
      | none =>
          match (items unit.source).findSome? Item.unknown? with
          | some text => .error (.fault (unknownCommand unit.name unit.source text))
          | none => .ok ((items unit.source).filterMap Item.instruction?) :=
  unit.instructions_issue_of_items #[]

/-- What a unit issues is the same whatever was issued before. -/
theorem instructions_issue (unit : SourceUnit) (issued : Array Instruction) :
    (unit.issue issued).instructions = unit.assemble.map (issued.toList ++ ·) := by
  rw [instructions_issue_of_items, assemble_eq_of_items]
  cases (items unit.source).findSome? Item.overlong? with
  | some cause => rfl
  | none => cases (items unit.source).findSome? Item.unknown? <;> rfl

end SourceUnit

/-! ### Rows of units -/

/-- A pass over a row of units puts the lists of all of them behind what was issued before. -/
theorem instructions_issueUnits (units : List SourceUnit) (issued : Array Instruction) :
    (issueUnits issued units).instructions =
      (units.mapM SourceUnit.assemble).map fun lists ↦ issued.toList ++ lists.flatten := by
  induction units generalizing issued with
  | nil => exact congrArg Except.ok (List.append_nil issued.toList).symm
  | cons unit rest ih =>
    have hunit := unit.instructions_issue issued
    rw [issueUnits, List.mapM_cons]
    generalize unit.issue issued = pass at hunit ⊢
    generalize unit.assemble = attempt at hunit ⊢
    obtain ⟨after, result⟩ := pass
    cases attempt with
    | error failure =>
      cases result with
      | error cause =>
        cases hunit
        rfl
      | ok => contradiction
    | ok list =>
      cases result with
      | error cause => contradiction
      | ok =>
        have hafter : after.toList = issued.toList ++ list := Except.ok.inj hunit
        dsimp only
        rw [ih after, hafter]
        cases rest.mapM SourceUnit.assemble with
        | error failure => rfl
        | ok lists => exact congrArg Except.ok (List.append_assoc _ list lists.flatten)

/-- Units that share one list of instructions come to the lists that they make by themselves, one
after the other. -/
theorem assemble_eq_flatten (units : List SourceUnit) :
    assemble units = (units.mapM SourceUnit.assemble).map List.flatten :=
  instructions_issueUnits units #[]

theorem assemble_singleton (unit : SourceUnit) : assemble [unit] = unit.assemble := by
  rw [assemble_eq_flatten, List.mapM_cons, List.mapM_nil]
  cases unit.assemble with
  | error failure => rfl
  | ok instructions => exact congrArg Except.ok (List.append_nil instructions)

end Accumulator.Assembly
