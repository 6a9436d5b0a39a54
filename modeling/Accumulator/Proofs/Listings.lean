import Accumulator.Proofs.Printing
import Accumulator.Proofs.Snapshots

/-!
The lines of a listing. A prompt may have line feeds, by its escapes, and is shown as it is: each of
them ends a line of the listing, and what follows it starts the next. So a listing has one line an
instruction and one more for each of these line feeds, and the marker is at the start of a line at
the current instruction, or where a prompt has it behind a line feed
(`Machine.listing_shows_prompts_as_they_are`).
-/

set_option autoImplicit false
set_option relaxedAutoImplicit false

namespace Accumulator

/-! ### Names -/

/-- The names of what has been assembled are identifiers. -/
theorem Instruction.hasPlainNames_of_writable {i : Instruction} (h : Assembly.Writable i) :
    i.HasPlainNames := by
  have hidentifier {name : String} (hname : Assembly.IsIdentifier name.toList) :
      '\n' ∉ name.toList :=
    fun hmem ↦ absurd (hname.part '\n' hmem) (by decide)
  rintro name (hname | htarget)
  · cases i <;> cases hname
    exact hidentifier h
  · cases i <;> cases htarget <;> exact hidentifier h

/-! ### Rows -/

namespace Program

variable {pc : Value} {i : Instruction} {address : Nat} {line : String}

/-- A row starts with the marker exactly if its address is that of the program counter. -/
theorem marker_prefix_column_iff (pc : Value) (address : Nat) :
    marker.toList <+: (column pc address).toList ↔ pc.toInt = address := by
  unfold column
  split
  · rename_i hpc
    exact iff_of_true List.prefix_rfl hpc
  · rename_i hpc
    refine iff_of_false (fun hmarker ↦ ?_) hpc
    have hmem : '>' ∈ (addressText address).toList := hmarker.subset (by decide)
    rw [addressText, String.toList_ofList] at hmem
    rcases List.mem_append.mp hmem with hspace | hdigit
    · exact absurd (List.eq_of_mem_replicate hspace) (by decide)
    · exact absurd (Assembly.isDigit_of_mem_toDigits hdigit) (by decide)

/-- A row is the address or the marker, and an instruction whose prompt is shown as it is. -/
theorem exists_prompt_in_row (hnames : i.HasPlainNames) (h : row pc (i, address) = .ok line) :
    ∃ front back, line.toList = front ++ i.prompt ++ back ∧ '\n' ∉ front ∧ '\n' ∉ back ∧
      (i.prompt ≠ [] → ∃ behind, back = '"' :: behind) ∧
      (marker.toList <+: line.toList ↔ pc.toInt = address) := by
  obtain ⟨shown, hshown, rfl⟩ := (row_eq_ok_iff _ _ _ _).mp h
  obtain ⟨front, back, htext, hfront, hback, hquote⟩ :=
    Instruction.exists_prompt_in_text hnames hshown
  have hline : (column pc address ++ " " ++ shown).toList =
      (column pc address).toList ++ ' ' :: shown.toList := by
    rw [String.toList_append, String.toList_append, List.append_assoc]
    rfl
  refine ⟨(column pc address).toList ++ ' ' :: front, back, ?_, ?_, hback, hquote, ?_⟩
  · rw [hline, htext]
    simp only [List.append_assoc, List.cons_append]
  · rw [List.mem_append, List.mem_cons, not_or, not_or]
    exact ⟨newline_notMem_column pc address, by decide, hfront⟩
  · rw [hline, ← marker_prefix_column_iff]
    exact ⟨Text.prefix_of_append_cons (by decide), fun h ↦ h.trans (List.prefix_append _ _)⟩

theorem length_lines_row (hnames : i.HasPlainNames) (h : row pc (i, address) = .ok line) :
    (Text.lines line).length = i.prompt.count '\n' + 1 := by
  obtain ⟨front, back, hline, hfront, hback, -⟩ := exists_prompt_in_row hnames h
  rw [Text.length_lines, hline, List.count_append, List.count_append,
    List.count_eq_zero_of_not_mem hfront, List.count_eq_zero_of_not_mem hback, Nat.zero_add,
    Nat.add_zero]

/-- Line `k` starts with the marker. -/
def Marked (lines : List String) (k : Nat) : Prop :=
  ∃ line, lines[k]? = some line ∧ marker.toList <+: line.toList

/-- The prompt has a line feed with the marker behind it, where its line `j` starts. -/
def MarksLine (i : Instruction) (j : Nat) : Prop :=
  ∃ before rest, i.prompt = before ++ '\n' :: rest ∧ j = before.count '\n' + 1 ∧
    marker.toList <+: rest

/-- The lines of a row that start with the marker: the first at the program counter, and those that
start so in the prompt. -/
theorem marked_row_iff (hnames : i.HasPlainNames) (h : row pc (i, address) = .ok line) (j : Nat) :
    Marked (Text.lines line) j ↔ (j = 0 ∧ pc.toInt = address) ∨ MarksLine i j := by
  obtain ⟨front, back, hline, hfront, hback, hquote, hmarker⟩ := exists_prompt_in_row hnames h
  have hnone : front.count '\n' = 0 := List.count_eq_zero_of_not_mem hfront
  unfold Marked MarksLine
  rw [Text.exists_line_iff (by decide), hmarker, hline]
  simp only [Text.append_append_eq_append_newline_iff hfront hback]
  refine or_congr Iff.rfl ⟨?_, ?_⟩
  · rintro ⟨_, _, ⟨before, rest, rfl, hprompt, rfl⟩, rfl, hrest⟩
    refine ⟨before, rest, hprompt, ?_, ?_⟩
    · rw [List.count_append, hnone, Nat.zero_add]
    · obtain ⟨behind, rfl⟩ := hquote (by simp [hprompt])
      exact Text.prefix_of_append_cons (by decide) hrest
  · rintro ⟨before, rest, hprompt, rfl, hrest⟩
    refine ⟨_, _, ⟨before, rest, rfl, hprompt, rfl⟩, ?_, hrest.trans (List.prefix_append rest back)⟩
    rw [List.count_append, hnone, Nat.zero_add]

/-! ### Listings -/

/-- Where the row of an instruction starts among the lines of the listing. -/
def place (instructions : List Instruction) (i : Nat) : Nat :=
  i + ((instructions.take i).flatMap Instruction.prompt).count '\n'

/-- Rows that have as many lines as the prompt of their instruction. -/
theorem length_lines_of_rows {instructions : List Instruction} {rows : List String}
    (h : List.Forall₂ (fun i line ↦ (Text.lines line).length = i.prompt.count '\n' + 1)
      instructions rows) :
    (rows.flatMap Text.lines).length =
      instructions.length + (instructions.flatMap Instruction.prompt).count '\n' := by
  induction h with
  | nil => rfl
  | cons hfirst _ ih =>
    rw [List.flatMap_cons, List.length_append, hfirst, ih, List.flatMap_cons, List.count_append,
      List.length_cons]
    omega

theorem count_prompts_of_plain {instructions : List Instruction}
    (h : ∀ i ∈ instructions, '\n' ∉ i.prompt) :
    (instructions.flatMap Instruction.prompt).count '\n' = 0 := by
  refine List.count_eq_zero_of_not_mem fun hmem ↦ ?_
  obtain ⟨i, hi, hnewline⟩ := List.mem_flatMap.mp hmem
  exact h i hi hnewline

theorem place_of_plain {instructions : List Instruction}
    (h : ∀ i ∈ instructions, '\n' ∉ i.prompt) (k : Nat) : place instructions k = k := by
  unfold place
  rw [count_prompts_of_plain fun i hmem ↦ h i (List.mem_of_mem_take hmem), Nat.add_zero]

theorem not_marksLine_of_plain (h : '\n' ∉ i.prompt) (j : Nat) : ¬MarksLine i j := by
  rintro ⟨before, rest, hprompt, -⟩
  rw [hprompt] at h
  exact h (List.mem_append_right before List.mem_cons_self)

section

variable {program : Program} {rows : List String} (hrows : program.listing pc = .ok rows)

include hrows

theorem getElem?_listing_iff (i : Nat) (line : String) :
    rows[i]? = some line ↔ ∃ instruction, program.instructions.toList[i]? = some instruction ∧
      row pc (instruction, i) = .ok line := by
  rw [getElem?_results_iff (f := row pc) hrows]
  simp [List.getElem?_zipIdx]

theorem exists_row_at {k : Nat} (hat : program.instructions.toList[k]? = some i) :
    ∃ line, rows[k]? = some line ∧ row pc (i, k) = .ok line :=
  exists_result_at (f := row pc) hrows (by simp [List.getElem?_zipIdx, hat])

variable (hnames : ∀ i ∈ program.instructions.toList, i.HasPlainNames)

include hnames

theorem rows_have_prompt_lines :
    List.Forall₂ (fun i line ↦ (Text.lines line).length = i.prompt.count '\n' + 1)
      program.instructions.toList rows := by
  have hentries : ∀ entry ∈ program.instructions.toList.zipIdx, entry.1.HasPlainNames :=
    fun entry hentry ↦ hnames entry.1 (List.fst_mem_of_mem_zipIdx hentry)
  have hboth := (List.forall₂_and_left _ _).mpr
    ⟨hentries, (mapM_eq_ok_iff (f := row pc) _ _).mp hrows⟩
  have hlengths := hboth.imp fun entry line h ↦ length_lines_row h.1 h.2
  rw [← List.zipIdx_map_fst 0 program.instructions.toList, List.forall₂_map_left_iff]
  exact hlengths

theorem length_take_listing {i : Nat} (hi : i ≤ program.size) :
    ((rows.take i).flatMap Text.lines).length = place program.instructions.toList i := by
  have hlengths := List.forall₂_take i (rows_have_prompt_lines hrows hnames)
  have htake : (program.instructions.toList.take i).length = i := List.length_take_of_le hi
  unfold place
  rw [length_lines_of_rows hlengths, htake]

theorem marked_flatMap_iff (k : Nat) :
    Marked (rows.flatMap Text.lines) k ↔
      ∃ i line j, rows[i]? = some line ∧ Marked (Text.lines line) j ∧
        k = place program.instructions.toList i + j := by
  have hplace {i : Nat} {line : String} (hline : rows[i]? = some line) :
      ((rows.map Text.lines).take i).flatten.length = place program.instructions.toList i := by
    have hi : i < rows.length := (List.getElem?_eq_some_iff.mp hline).1
    rw [← (rows_have_prompt_lines hrows hnames).length_eq] at hi
    rw [← List.map_take, ← List.flatMap_def, length_take_listing hrows hnames (Nat.le_of_lt hi)]
  unfold Marked
  simp only [List.flatMap_def, Text.getElem?_flatten_eq_some_iff, List.getElem?_map,
    Option.map_eq_some_iff]
  constructor
  · rintro ⟨shown, ⟨i, _, j, ⟨line, hline, rfl⟩, hshown, rfl⟩, hmarker⟩
    exact ⟨i, line, j, hline, ⟨shown, hshown, hmarker⟩, by rw [hplace hline]⟩
  · rintro ⟨i, line, j, hline, ⟨shown, hshown, hmarker⟩, rfl⟩
    exact ⟨shown, ⟨i, _, j, ⟨line, hline, rfl⟩, hshown, by rw [hplace hline]⟩, hmarker⟩

/-- The lines of a listing that start with the marker: that of the current instruction, and those
that start so in a prompt. -/
theorem marked_listing_iff (k : Nat) :
    Marked (rows.flatMap Text.lines) k ↔
      (∃ i : Nat, pc.toInt = i ∧ i < program.size ∧ k = place program.instructions.toList i) ∨
        ∃ i instruction j, program.instructions.toList[i]? = some instruction ∧
          MarksLine instruction j ∧ k = place program.instructions.toList i + j := by
  rw [marked_flatMap_iff hrows hnames]
  constructor
  · rintro ⟨i, line, j, hline, hmarked, rfl⟩
    obtain ⟨instruction, hat, hrow⟩ := (getElem?_listing_iff hrows i line).mp hline
    have hi : i < program.size := (List.getElem?_eq_some_iff.mp hat).1
    have hplain := hnames _ (List.mem_of_getElem? hat)
    rcases (marked_row_iff hplain hrow j).mp hmarked with ⟨rfl, hpc⟩ | hmarks
    · exact Or.inl ⟨i, hpc, hi, rfl⟩
    · exact Or.inr ⟨i, instruction, j, hat, hmarks, rfl⟩
  · rintro (⟨i, hpc, hi, rfl⟩ | ⟨i, instruction, j, hat, hmarks, rfl⟩)
    · have hat := List.getElem?_eq_getElem (l := program.instructions.toList) hi
      obtain ⟨line, hline, hrow⟩ := exists_row_at hrows hat
      have hplain := hnames _ (List.mem_of_getElem? hat)
      exact ⟨i, line, 0, hline, (marked_row_iff hplain hrow 0).mpr (Or.inl ⟨rfl, hpc⟩), rfl⟩
    · obtain ⟨line, hline, hrow⟩ := exists_row_at hrows hat
      have hplain := hnames _ (List.mem_of_getElem? hat)
      exact ⟨i, line, j, hline, (marked_row_iff hplain hrow j).mpr (Or.inr hmarks), rfl⟩

end

end Program

/-! ### Snapshots -/

namespace Machine

/-- The lines of a snapshot behind the heading of the instructions. -/
def commandLines (text : String) : List String :=
  ((Text.lines text).dropWhile (· != "COMMANDS:")).drop 1

theorem commandLines_snapshot {machine : Machine} {text : String}
    (h : machine.snapshot = .ok text) :
    ∃ rows, machine.program.listing machine.registers.pc = .ok rows ∧
      commandLines text = rows.flatMap Text.lines := by
  obtain ⟨numbered, acc, pc, rows, hnumbered, -, -, hrows, hlines⟩ := exists_lines_snapshot h
  have hstart {c : Char} {line : String} (hline : line.toList.head? = some c) (hc : c ≠ 'C') :
      (line != "COMMANDS:") = true := by
    rw [bne_iff_ne]
    rintro rfl
    exact hc (Option.some.inj hline).symm
  have hfront : ∀ line ∈ "REGISTERS:" :: (numbered ++ ["acc = " ++ acc, "pc = " ++ pc]),
      (line != "COMMANDS:") = true := by
    intro line hline
    simp only [List.mem_cons, List.mem_append, List.not_mem_nil, or_false] at hline
    rcases hline with rfl | hrow | rfl | rfl
    · decide
    · obtain ⟨rest, hrest⟩ := (Registers.row_shape hnumbered line hrow).2
      exact hstart (c := 'r') (by rw [hrest]; rfl) (by decide)
    · exact hstart (c := 'a') (by rw [String.toList_append]; rfl) (by decide)
    · exact hstart (c := 'p') (by rw [String.toList_append]; rfl) (by decide)
  have hsplit : Text.lines text = "REGISTERS:" :: (numbered ++ ["acc = " ++ acc, "pc = " ++ pc]) ++
      "COMMANDS:" :: rows.flatMap Text.lines := by
    rw [hlines]
    simp
  refine ⟨rows, hrows, ?_⟩
  unfold commandLines
  rw [hsplit, List.dropWhile_append_of_pos hfront]
  rfl

/-- The listing in the snapshot of an assembled program: a line an instruction, and a further line
for each line feed of a prompt. The current instruction's line is marked, and besides it exactly
those lines that a prompt marks. So without line feeds in prompts the listing has one line an
instruction, and at most one is marked. -/
theorem listing_shows_prompts_as_they_are (units : List Assembly.SourceUnit)
    (instructions : List Instruction) (machine : Machine) (text : String)
    (hunits : Assembly.assemble units = .ok instructions)
    (hprogram : Program.ofList instructions = .ok machine.program)
    (hsnapshot : machine.snapshot = .ok text) :
    (commandLines text).length =
        machine.program.size + (instructions.flatMap Instruction.prompt).count '\n' ∧
      (∀ k, Program.Marked (commandLines text) k ↔
        (∃ i : Nat, machine.registers.pc.toInt = i ∧ i < machine.program.size ∧
          k = Program.place instructions i) ∨
        ∃ i instruction j, instructions[i]? = some instruction ∧
          Program.MarksLine instruction j ∧ k = Program.place instructions i + j) ∧
      ((∀ instruction ∈ instructions, '\n' ∉ instruction.prompt) →
        (commandLines text).length = machine.program.size ∧
        ∀ k : Nat, Program.Marked (commandLines text) k ↔
          machine.registers.pc.toInt = k ∧ k < machine.program.size) := by
  obtain ⟨rows, hrows, hlines⟩ := commandLines_snapshot hsnapshot
  have hlist : machine.program.instructions.toList = instructions := by
    rw [Program.instructions_of_ofList hprogram]
  have hnames : ∀ i ∈ machine.program.instructions.toList, i.HasPlainNames := by
    rw [hlist]
    exact fun i hmem ↦
      Instruction.hasPlainNames_of_writable (Assembly.writable_of_assemble hunits i hmem)
  have hlength := Program.length_lines_of_rows (Program.rows_have_prompt_lines hrows hnames)
  have hmarked := Program.marked_listing_iff hrows hnames
  rw [hlist] at hmarked
  rw [hlines, hlength, hlist]
  refine ⟨?_, hmarked, ?_⟩
  · rw [← hlist]
    rfl
  · intro hplain
    refine ⟨?_, fun k ↦ ?_⟩
    · rw [Program.count_prompts_of_plain hplain, ← hlist]
      rfl
    · rw [hmarked k]
      simp only [Program.place_of_plain hplain]
      constructor
      · rintro (⟨i, hpc, hi, rfl⟩ | ⟨i, instruction, j, hat, hmarks, -⟩)
        · exact ⟨hpc, hi⟩
        · have hnone := hplain instruction (List.mem_of_getElem? hat)
          exact absurd hmarks (Program.not_marksLine_of_plain hnone j)
      · rintro ⟨hpc, hk⟩
        exact Or.inl ⟨k, hpc, hk, rfl⟩

/-- A prompt that makes a line of its own look like the current instruction. -/
theorem listing_of_prompt_with_marker :
    let program : Program := ⟨#[.output "a\n>>>> b", .halt], [], rfl, by decide,
      Labels.targets_of_undefined? rfl⟩
    let machine := start program { r := [] }
    Assembly.assemble [{ contents := "out \"a\\n>>>> b\"\nhlt" }] =
        .ok [.output "a\n>>>> b", .halt] ∧
      ∃ text, machine.snapshot = .ok text ∧ (commandLines text).length = 3 ∧
        program.size = 2 ∧ Program.Marked (commandLines text) 0 ∧
        Program.Marked (commandLines text) 1 := by
  intro program machine
  have hunits : Assembly.assemble [{ contents := "out \"a\\n>>>> b\"\nhlt" }] =
      .ok [.output "a\n>>>> b", .halt] := by decide +kernel
  have hrenders : machine.Renders := by
    rw [renders_iff]
    refine ⟨⟨nofun, Value.exists_text_zero, Value.exists_text_zero⟩, ?_⟩
    intro i hmem
    rcases List.mem_pair.mp hmem with rfl | rfl
    · exact ⟨_, rfl⟩
    · exact ⟨_, rfl⟩
  obtain ⟨text, hsnapshot⟩ := hrenders
  obtain ⟨hlength, hmarked, -⟩ :=
    listing_shows_prompts_as_they_are _ _ machine text hunits rfl hsnapshot
  refine ⟨hunits, text, hsnapshot, hlength, rfl, ?_, ?_⟩
  · exact (hmarked 0).mpr (Or.inl ⟨0, rfl, by decide, rfl⟩)
  · have hmarks : Program.MarksLine (.output "a\n>>>> b") 1 :=
      ⟨['a'], ">>>> b".toList, rfl, rfl, by decide⟩
    exact (hmarked 1).mpr (Or.inr ⟨0, _, 1, rfl, hmarks, rfl⟩)

end Machine

end Accumulator
