import Accumulator.Fault
import Accumulator.Instruction

/-!
Programs: instruction lists in which no two labels share a name and every jump refers to a label.
The labels are gathered once, with their addresses, in the order of their definition.

`Program.ofList` accepts exactly the lists of that kind. A repeated label is reported before an
undefined one, and of several faults of one sort the first is reported.
-/

set_option autoImplicit false
set_option relaxedAutoImplicit false

namespace Accumulator

abbrev Labels := List (String × Nat)

namespace Labels

/-- The labels that an instruction list defines, in order. -/
def ofList (instructions : List Instruction) : Labels :=
  instructions.zipIdx.filterMap fun (instruction, address) ↦
    instruction.name?.map fun name ↦ (name, address)

theorem mem_ofList (instructions : List Instruction) (name : String) (address : Nat) :
    (name, address) ∈ ofList instructions ↔ instructions[address]? = some (.label name) := by
  simp only [ofList, List.mem_filterMap, Option.map_eq_some_iff, Prod.mk.injEq, Prod.exists,
    List.mem_zipIdx_iff_getElem?, Instruction.name?_eq_some_iff]
  grind

/-- The first label whose name one before it has: the name and the two addresses. -/
def repeatedAfter? (seen : Labels) : Labels → Option (String × Nat × Nat)
  | [] => none
  | (name, address) :: rest =>
      match seen.lookup name with
      | some first => some (name, first, address)
      | none => repeatedAfter? ((name, address) :: seen) rest

def repeated? (labels : Labels) : Option (String × Nat × Nat) := repeatedAfter? [] labels

theorem lookup_eq_none_iff (labels : Labels) (name : String) :
    labels.lookup name = none ↔ name ∉ labels.map Prod.fst := by
  induction labels with
  | nil => simp
  | cons label rest ih =>
    rw [List.lookup_cons]
    by_cases h : name = label.1
    · simp [h]
    · simp only [beq_eq_false_iff_ne.mpr h, ih, List.map_cons, List.mem_cons, h, false_or]

theorem nodup_of_repeatedAfter? {seen labels : Labels} (h : repeatedAfter? seen labels = none) :
    (labels.map Prod.fst).Nodup ∧ ∀ name ∈ labels.map Prod.fst, name ∉ seen.map Prod.fst := by
  induction labels generalizing seen with
  | nil => simp
  | cons label rest ih =>
    rw [repeatedAfter?] at h
    split at h
    · contradiction
    · rename_i hnone
      have hfresh := (lookup_eq_none_iff _ _).mp hnone
      obtain ⟨hrest, hseen⟩ := ih h
      grind

theorem nodup_of_repeated? {labels : Labels} (h : labels.repeated? = none) :
    (labels.map Prod.fst).Nodup :=
  (nodup_of_repeatedAfter? h).1

/-- The first jump of an instruction list to a name that is no label. -/
def undefined? (labels : Labels) (instructions : List Instruction) : Option String :=
  instructions.findSome? fun instruction ↦
    instruction.target?.filter fun target ↦ (labels.lookup target).isNone

theorem targets_of_undefined? {labels : Labels} {instructions : List Instruction}
    (h : labels.undefined? instructions = none) :
    ∀ instruction ∈ instructions, ∀ target, instruction.target? = some target →
      target ∈ labels.map Prod.fst := by
  intro instruction hmem target htarget
  have hnone := List.findSome?_eq_none_iff.mp h instruction hmem
  rw [htarget] at hnone
  by_cases hin : target ∈ labels.map Prod.fst
  · exact hin
  · have := (lookup_eq_none_iff labels target).mpr hin
    simp [Option.filter, this] at hnone

end Labels

structure Program where
  instructions : Array Instruction
  labels : Labels
  labels_eq : labels = Labels.ofList instructions.toList
  names_nodup : (labels.map Prod.fst).Nodup
  targets_defined : ∀ instruction ∈ instructions.toList, ∀ target,
    instruction.target? = some target → target ∈ labels.map Prod.fst

namespace Program

def ofList (instructions : List Instruction) : Except Fault Program :=
  let labels := Labels.ofList instructions
  match hrepeated : labels.repeated? with
  | some (name, first, second) => .error (.duplicateLabel name first second)
  | none =>
      match hundefined : labels.undefined? instructions with
      | some name => .error (.labelNotFound name)
      | none => .ok {
          instructions := instructions.toArray
          labels
          labels_eq := rfl
          names_nodup := Labels.nodup_of_repeated? hrepeated
          targets_defined := Labels.targets_of_undefined? hundefined }

theorem instructions_of_ofList {instructions : List Instruction} {program : Program}
    (h : ofList instructions = .ok program) : program.instructions = instructions.toArray := by
  unfold ofList at h
  simp only at h
  split at h
  · contradiction
  · split at h
    · contradiction
    · rw [← Except.ok.inj h]

def size (program : Program) : Nat := program.instructions.size

/-- The address of a label. -/
def address (program : Program) (name : String) : Except Fault Nat :=
  match program.labels.lookup name with
  | some address => .ok address
  | none => .error (.labelNotFound name)

/-- The mark of the instruction at the program counter. -/
def marker : String := ">>>>"

/-- An address, in the width of the marker or wider if it needs. -/
def addressText (address : Nat) : String :=
  let digits := Nat.toDigits 10 address
  String.ofList (List.replicate (marker.length - digits.length) ' ' ++ digits)

/-- One line an instruction; the one whose address the program counter holds is marked. -/
def listing (program : Program) (pc : Value) : Except Numeral.Overlong (List String) :=
  program.instructions.toList.zipIdx.mapM fun (instruction, address) ↦ do
    let column := if pc.toInt = address then marker else addressText address
    return s!"{column} {← instruction.text}"

/-- The listing without a marker. -/
def plainListing (program : Program) : Except Numeral.Overlong (List String) :=
  program.listing (.int (-1))

end Program

end Accumulator
