import Accumulator.Machine.Step
import Accumulator.Proofs.Lines
import Accumulator.Proofs.Numerals
import Accumulator.Proofs.Rendering

/-!
What a snapshot tells of a machine. The text of a value or of an instruction belongs to no other
(`Value.text_injective`, `Instruction.text_injective`), and as long as no name and no prompt has a
line feed, the lines of a snapshot are those of the registers and of the instructions, one each. So
the whole register file and the whole program can be read off it.
-/

set_option autoImplicit false
set_option relaxedAutoImplicit false

namespace Accumulator

/-! ### Values -/

namespace Value

variable {v w : Value} {text : String}

theorem newline_notMem_text (h : v.text = .ok text) : '\n' ∉ text.toList := by
  cases v with
  | int n =>
    obtain ⟨-, rfl⟩ := (Numeral.text_eq_ok_iff n text).mp h
    intro hmem
    rcases Numeral.eq_minus_or_isDigit_of_mem hmem with hminus | hdigit
    · exact absurd hminus (by decide)
    · exact absurd hdigit (by decide)
  | bool b => cases b <;> cases h <;> decide

theorem exists_text_zero : ∃ text, (int 0).text = .ok text :=
  ⟨_, (Numeral.text_eq_ok_iff _ _).mpr
    ⟨Numeral.lt_bound_of_lt_pow (k := 1) (by decide) (by decide), rfl⟩⟩

theorem text_int_ne_text_bool {n : Int} {b : Bool} (h : (int n).text = .ok text) :
    (bool b).text ≠ .ok text := by
  intro hbool
  obtain ⟨-, rfl⟩ := (Numeral.text_eq_ok_iff n text).mp h
  -- The text of a truth value ends with a letter, which no number has.
  have hletter : 'e' ∈ (toString n).toList := by
    cases b <;> exact Except.ok.inj hbool ▸ by decide
  rcases Numeral.eq_minus_or_isDigit_of_mem hletter with hminus | hdigit
  · exact absurd hminus (by decide)
  · exact absurd hdigit (by decide)

/-- No two values have the same text. -/
theorem text_injective (hv : v.text = .ok text) (hw : w.text = .ok text) : v = w := by
  cases v with
  | int n =>
    cases w with
    | int m =>
      obtain ⟨hn, rfl⟩ := (Numeral.text_eq_ok_iff n text).mp hv
      obtain ⟨hm, hsame⟩ := (Numeral.text_eq_ok_iff m _).mp hw
      have hread := TokenReader.integer_toString hn
      rw [hsame, TokenReader.integer_toString hm] at hread
      rw [Except.ok.inj hread]
    | bool b => exact absurd hw (text_int_ne_text_bool hv)
  | bool b =>
    cases w with
    | int m => exact absurd hv (text_int_ne_text_bool hw)
    | bool c =>
      have hsame := hv.trans hw.symm
      cases b <;> cases c <;> first | rfl | exact absurd (Except.ok.inj hsame) (by decide)

end Value

/-! ### Instructions -/

namespace Instruction

/-- The forms that instructions have in a listing. -/
inductive Form where
  | label
  | add
  | sub
  | store
  | load
  | jump
  | jumpIfZero
  | jumpIfNonNegative
  | halt
  | input
  | output
  deriving DecidableEq, Repr

namespace Form

/-- What stands in front of the name, the operand or the prompt. -/
def front : Form → String
  | label => "LABEL "
  | add => "    ADD acc += r["
  | sub => "    SUB acc -= r["
  | store => "    STA r["
  | load => "    LDA acc = r["
  | jump => "    JMP "
  | jumpIfZero => "    JZ "
  | jumpIfNonNegative => "    JGE "
  | halt => "    HLT"
  | input => "    IN acc = \""
  | output => "    OUT \""

/-- What stands behind it. -/
def back : Form → String
  | label => ":"
  | add | sub | load => "]"
  | store => "] = acc"
  | jump | jumpIfZero | jumpIfNonNegative | halt => ""
  | input => "\""
  | output => "\" <acc>"

/-- Six characters tell the forms apart. -/
theorem eq_of_take_front {f g : Form} (h : f.front.toList.take 6 = g.front.toList.take 6) :
    f = g := by
  revert h
  cases f <;> cases g <;> decide

theorem six_le_length_front (f : Form) : 6 ≤ f.front.toList.length := by
  cases f <;> decide

end Form

variable {i j : Instruction} {text : String}

def form : Instruction → Form
  | .label _ => .label
  | .add _ => .add
  | .sub _ => .sub
  | .store _ => .store
  | .load _ => .load
  | .jump _ => .jump
  | .jumpIfZero _ => .jumpIfZero
  | .jumpIfNonNegative _ => .jumpIfNonNegative
  | .halt => .halt
  | .input _ => .input
  | .output _ => .output

/-- The name, the operand or the prompt of an instruction, as its text shows it. -/
def payload : Instruction → Except Numeral.Overlong String
  | .label shown | .jump shown | .jumpIfZero shown | .jumpIfNonNegative shown | .input shown
  | .output shown => .ok shown
  | .add index | .sub index | .store index | .load index => index.text
  | .halt => .ok ""

theorem text_eq (i : Instruction) :
    i.text = i.payload.map fun shown ↦ i.form.front ++ shown ++ i.form.back := by
  have hindex {make : String → String} {index : Value} :
      (index.text >>= fun shown ↦ pure (make shown)) = index.text.map make := by
    cases index.text <;> rfl
  cases i with
  | add | sub | store | load => exact hindex
  | jump target | jumpIfZero target | jumpIfNonNegative target =>
    exact congrArg Except.ok (String.append_empty).symm
  | _ => rfl

theorem exists_payload (h : i.text = .ok text) :
    ∃ shown, i.payload = .ok shown ∧ text = i.form.front ++ shown ++ i.form.back := by
  rw [text_eq] at h
  cases hpayload : i.payload with
  | error cause =>
    rw [hpayload] at h
    contradiction
  | ok shown =>
    rw [hpayload] at h
    exact ⟨shown, rfl, (Except.ok.inj h).symm⟩

theorem eq_of_form {shown : String} (hform : i.form = j.form) (hi : i.payload = .ok shown)
    (hj : j.payload = .ok shown) : i = j := by
  have hindex {v w : Value} (hv : v.text = .ok shown) (hw : w.text = .ok shown) : v = w :=
    Value.text_injective hv hw
  cases i <;> cases j <;> first
    | exact Form.noConfusion hform
    | exact congrArg _ (hindex hi hj)
    | exact congrArg _ (Except.ok.inj (hi.trans hj.symm))
    | rfl

/-- The first six characters of a text are those of its form. -/
theorem take_text (h : i.text = .ok text) :
    text.toList.take 6 = i.form.front.toList.take 6 := by
  obtain ⟨shown, -, rfl⟩ := exists_payload h
  rw [String.toList_append, String.toList_append, List.append_assoc,
    List.take_append_of_le_length (Form.six_le_length_front _)]

/-- No two instructions have the same text, whatever their names and prompts are. -/
theorem text_injective (hi : i.text = .ok text) (hj : j.text = .ok text) : i = j := by
  have hform : i.form = j.form := Form.eq_of_take_front ((take_text hi).symm.trans (take_text hj))
  obtain ⟨shown, hpayload, rfl⟩ := exists_payload hi
  obtain ⟨other, hother, hsame⟩ := exists_payload hj
  rw [hform, String.append_left_inj, String.append_right_inj] at hsame
  rw [← hsame] at hother
  exact eq_of_form hform hpayload hother

/-- The prompt of an instruction; most have none. -/
def prompt : Instruction → List Char
  | .input prompt | .output prompt => prompt.toList
  | _ => []

/-- Neither the name that the instruction defines nor the one it refers to has a line feed. -/
def HasPlainNames (i : Instruction) : Prop :=
  ∀ name, i.name? = some name ∨ i.target? = some name → '\n' ∉ name.toList

theorem Form.newline_notMem (f : Form) : '\n' ∉ f.front.toList ∧ '\n' ∉ f.back.toList := by
  cases f <;> decide

theorem Form.exists_quote {f : Form} (h : f = .input ∨ f = .output) :
    ∃ behind, f.back.toList = '"' :: behind := by
  rcases h with rfl | rfl
  · exact ⟨[], by decide⟩
  · exact ⟨" <acc>".toList, by decide⟩

/-- What an instruction is about is a prompt in quotes, or has no line feed. -/
theorem payload_cases (hnames : i.HasPlainNames) {shown : String} (h : i.payload = .ok shown) :
    (i.prompt = [] ∧ '\n' ∉ shown.toList) ∨
      (i.prompt = shown.toList ∧ ∃ behind, i.form.back.toList = '"' :: behind) := by
  cases i with
  | label name =>
    cases h
    exact Or.inl ⟨rfl, hnames _ (Or.inl rfl)⟩
  | add | sub | store | load => exact Or.inl ⟨rfl, Value.newline_notMem_text h⟩
  | jump target | jumpIfZero target | jumpIfNonNegative target =>
    cases h
    exact Or.inl ⟨rfl, hnames _ (Or.inr rfl)⟩
  | halt =>
    cases h
    exact Or.inl ⟨rfl, List.not_mem_nil⟩
  | input =>
    cases h
    exact Or.inr ⟨rfl, Form.exists_quote (Or.inl rfl)⟩
  | output =>
    cases h
    exact Or.inr ⟨rfl, Form.exists_quote (Or.inr rfl)⟩

/-- Line feeds of an instruction's text are those of its prompt, behind which is a quote. -/
theorem exists_prompt_in_text (hnames : i.HasPlainNames) (h : i.text = .ok text) :
    ∃ front back, text.toList = front ++ i.prompt ++ back ∧ '\n' ∉ front ∧ '\n' ∉ back ∧
      (i.prompt ≠ [] → ∃ behind, back = '"' :: behind) := by
  obtain ⟨shown, hpayload, rfl⟩ := exists_payload h
  obtain ⟨hfront, hback⟩ := i.form.newline_notMem
  simp only [String.toList_append]
  rcases payload_cases hnames hpayload with ⟨hnone, hshown⟩ | ⟨hprompt, hquote⟩
  · refine ⟨i.form.front.toList ++ shown.toList, i.form.back.toList, ?_, ?_, hback, ?_⟩
    · rw [hnone, List.append_nil]
    · exact fun hmem ↦ (List.mem_append.mp hmem).elim hfront hshown
    · exact fun hsome ↦ absurd hnone hsome
  · exact ⟨i.form.front.toList, i.form.back.toList, by rw [hprompt], hfront, hback, fun _ ↦ hquote⟩

theorem newline_notMem_text (hnames : i.HasPlainNames) (hprompt : '\n' ∉ i.prompt)
    (h : i.text = .ok text) : '\n' ∉ text.toList := by
  obtain ⟨front, back, htext, hfront, hback, -⟩ := exists_prompt_in_text hnames h
  rw [htext]
  simp only [List.mem_append, not_or]
  exact ⟨⟨hfront, hprompt⟩, hback⟩

end Instruction

/-! ### Rows -/

/-- Two lists are split alike where their first members without a property stand. -/
theorem eq_of_append_cons_eq {α : Type} {p : α → Prop} {front front' rest rest' : List α}
    {x x' : α} (hfront : ∀ y ∈ front, p y) (hfront' : ∀ y ∈ front', p y) (hx : ¬p x)
    (hx' : ¬p x') (h : front ++ x :: rest = front' ++ x' :: rest') :
    front = front' ∧ x = x' ∧ rest = rest' := by
  induction front generalizing front' with
  | nil =>
    cases front' with
    | nil => exact ⟨rfl, List.cons.inj h⟩
    | cons y front' => exact absurd ((List.cons.inj h).1 ▸ hfront' y List.mem_cons_self) hx
  | cons y front ih =>
    cases front' with
    | nil => exact absurd ((List.cons.inj h).1 ▸ hfront y List.mem_cons_self) hx'
    | cons y' front' =>
      obtain ⟨rfl, hrest⟩ := List.cons.inj h
      obtain ⟨rfl, hxs⟩ := ih (List.forall_mem_cons.mp hfront).2
        (List.forall_mem_cons.mp hfront').2 hrest
      exact ⟨rfl, hxs⟩

/-- The members of a list can be told from its rows if each can from its own. -/
theorem eq_of_rows {α β ε : Type} {row : α × Nat → Except ε β}
    (hrow : ∀ (x y : α) (i : Nat) (shown : β), row (x, i) = .ok shown → row (y, i) = .ok shown →
      x = y) {xs ys : List α} {n : Nat} {rows : List β}
    (hxs : (xs.zipIdx n).mapM row = .ok rows) (hys : (ys.zipIdx n).mapM row = .ok rows) :
    xs = ys := by
  rw [mapM_eq_ok_iff] at hxs hys
  induction xs generalizing ys n rows with
  | nil =>
    rw [List.zipIdx_nil, List.forall₂_nil_left_iff] at hxs
    rw [hxs, List.forall₂_nil_right_iff, List.zipIdx_eq_nil_iff] at hys
    exact hys.symm
  | cons x xs ih =>
    rw [List.zipIdx_cons, List.forall₂_cons_left_iff] at hxs
    obtain ⟨shown, rest, hx, hrest, rfl⟩ := hxs
    cases ys with
    | nil =>
      rw [List.zipIdx_nil, List.forall₂_nil_left_iff] at hys
      contradiction
    | cons y ys =>
      rw [List.zipIdx_cons, List.forall₂_cons] at hys
      rw [hrow x y n shown hx hys.1, ih hrest hys.2]

/-! ### The registers -/

namespace Registers

/-- The row of a numbered register. -/
def row (entry : Value × Nat) : Except Numeral.Overlong String :=
  entry.1.text >>= fun shown ↦ pure s!"r[{entry.2}] = {shown}"

theorem row_eq_ok_iff (v : Value) (i : Nat) (line : String) :
    row (v, i) = .ok line ↔ ∃ shown, v.text = .ok shown ∧
      "r[" ++ toString i ++ "] = " ++ shown = line := by
  unfold row
  rw [bind_eq_ok_iff]
  simp only [pure, Except.pure, Except.ok.injEq]
  rfl

theorem row_injective (v w : Value) (i : Nat) (line : String) (hv : row (v, i) = .ok line)
    (hw : row (w, i) = .ok line) : v = w := by
  obtain ⟨shown, hshown, rfl⟩ := (row_eq_ok_iff _ _ _).mp hv
  obtain ⟨other, hother, hsame⟩ := (row_eq_ok_iff _ _ _).mp hw
  rw [String.append_right_inj] at hsame
  rw [hsame] at hother
  exact Value.text_injective hshown hother

theorem row_shape {entries : List (Value × Nat)} {rows : List String}
    (h : entries.mapM row = .ok rows) :
    ∀ line ∈ rows, '\n' ∉ line.toList ∧ ∃ rest, line.toList = 'r' :: rest := by
  intro line hline
  obtain ⟨⟨v, i⟩, -, hrow⟩ := exists_of_mem_results h hline
  obtain ⟨shown, hshown, rfl⟩ := (row_eq_ok_iff _ _ _).mp hrow
  have hshown := Value.newline_notMem_text hshown
  have hdigits : '\n' ∉ (toString i).toList := by
    intro hmem
    rw [Nat.toString_eq_repr, Nat.toList_repr] at hmem
    exact absurd (Assembly.isDigit_of_mem_toDigits hmem) (by decide)
  have hstart : "r[".toList = ['r', '['] := by decide
  rw [String.toList_append, String.toList_append, String.toList_append, hstart]
  refine ⟨?_, _, rfl⟩
  simp only [List.mem_append, not_or]
  exact ⟨⟨⟨by decide, hdigits⟩, by decide⟩, hshown⟩

theorem exists_rows {registers : Registers} {text : String} (h : registers.text = .ok text) :
    ∃ rows acc pc, registers.r.zipIdx.mapM row = .ok rows ∧ registers.acc.text = .ok acc ∧
      registers.pc.text = .ok pc ∧
      text = "\n".intercalate ("REGISTERS:" :: (rows ++ ["acc = " ++ acc, "pc = " ++ pc])) := by
  unfold Registers.text at h
  obtain ⟨rows, hrows, h⟩ := bind_eq_ok_iff.mp h
  obtain ⟨acc, hacc, h⟩ := bind_eq_ok_iff.mp h
  obtain ⟨pc, hpc, h⟩ := bind_eq_ok_iff.mp h
  exact ⟨rows, acc, pc, hrows, hacc, hpc, (Except.ok.inj h).symm⟩

end Registers

/-! ### The listing -/

namespace Program

/-- What is in front of an instruction in a listing: its address or the marker. -/
def column (pc : Value) (address : Nat) : String :=
  if pc.toInt = address then marker else addressText address

/-- The row of an instruction. -/
def row (pc : Value) (entry : Instruction × Nat) : Except Numeral.Overlong String :=
  entry.1.text >>= fun shown ↦ pure s!"{column pc entry.2} {shown}"

theorem row_eq_ok_iff (pc : Value) (i : Instruction) (address : Nat) (line : String) :
    row pc (i, address) = .ok line ↔
      ∃ shown, i.text = .ok shown ∧ column pc address ++ " " ++ shown = line := by
  unfold row
  rw [bind_eq_ok_iff]
  simp only [pure, Except.pure, Except.ok.injEq]
  rfl

theorem row_injective (pc : Value) (i j : Instruction) (address : Nat) (line : String)
    (hi : row pc (i, address) = .ok line) (hj : row pc (j, address) = .ok line) : i = j := by
  obtain ⟨shown, hshown, rfl⟩ := (row_eq_ok_iff _ _ _ _).mp hi
  obtain ⟨other, hother, hsame⟩ := (row_eq_ok_iff _ _ _ _).mp hj
  rw [String.append_right_inj] at hsame
  rw [hsame] at hother
  exact Instruction.text_injective hshown hother

theorem newline_notMem_addressText (address : Nat) : '\n' ∉ (addressText address).toList := by
  unfold addressText
  rw [String.toList_ofList]
  intro hmem
  rcases List.mem_append.mp hmem with hspace | hdigit
  · exact absurd (List.eq_of_mem_replicate hspace) (by decide)
  · exact absurd (Assembly.isDigit_of_mem_toDigits hdigit) (by decide)

theorem newline_notMem_column (pc : Value) (address : Nat) :
    '\n' ∉ (column pc address).toList := by
  unfold column
  split
  · decide
  · exact newline_notMem_addressText address

/-- No label and no prompt of the program has a line feed. -/
def HasPlainPayloads (program : Program) : Prop :=
  ∀ i ∈ program.instructions.toList,
    (∀ name, i = .label name → '\n' ∉ name.toList) ∧ '\n' ∉ i.prompt

/-- What jumps refer to are labels. -/
theorem HasPlainPayloads.hasPlainNames {program : Program} (h : program.HasPlainPayloads)
    {i : Instruction} (hmem : i ∈ program.instructions.toList) : i.HasPlainNames := by
  rintro name (hname | htarget)
  · exact (h i hmem).1 name ((Instruction.name?_eq_some_iff i name).mp hname)
  · have hdefined := program.targets_defined i hmem name htarget
    obtain ⟨⟨label, address⟩, hlabel, rfl⟩ := List.mem_map.mp hdefined
    rw [program.labels_eq, Labels.mem_ofList] at hlabel
    exact (h _ (List.mem_of_getElem? hlabel)).1 label rfl

theorem HasPlainPayloads.newline_notMem {program : Program} (h : program.HasPlainPayloads)
    {pc : Value} {rows : List String} (hrows : program.listing pc = .ok rows) :
    ∀ line ∈ rows, '\n' ∉ line.toList := by
  intro line hline
  obtain ⟨⟨i, address⟩, hentry, hrow⟩ := exists_of_mem_results (f := row pc) hrows hline
  obtain ⟨shown, hshown, rfl⟩ := (row_eq_ok_iff _ _ _ _).mp hrow
  have hmem : i ∈ program.instructions.toList := List.fst_mem_of_mem_zipIdx hentry
  have htext := Instruction.newline_notMem_text (h.hasPlainNames hmem) (h i hmem).2 hshown
  simp only [String.toList_append, List.mem_append, not_or]
  exact ⟨⟨newline_notMem_column pc address, by decide⟩, htext⟩

end Program

/-! ### The snapshot -/

namespace Machine

variable {machine : Machine} {text : String}

/-- The lines of a snapshot are the rows of the registers and those of the listing. -/
theorem exists_lines_snapshot (h : machine.snapshot = .ok text) :
    ∃ rows acc pc listing, machine.registers.r.zipIdx.mapM Registers.row = .ok rows ∧
      machine.registers.acc.text = .ok acc ∧ machine.registers.pc.text = .ok pc ∧
      machine.program.listing machine.registers.pc = .ok listing ∧
      Text.lines text = "REGISTERS:" ::
        (rows ++ ("acc = " ++ acc) :: ("pc = " ++ pc) :: "COMMANDS:" ::
          listing.flatMap Text.lines) := by
  unfold snapshot at h
  obtain ⟨registers, hregisters, h⟩ := bind_eq_ok_iff.mp h
  obtain ⟨listing, hlisting, h⟩ := bind_eq_ok_iff.mp h
  obtain ⟨rows, acc, pc, hrows, hacc, hpc, rfl⟩ := Registers.exists_rows hregisters
  refine ⟨rows, acc, pc, listing, hrows, hacc, hpc, hlisting, ?_⟩
  have hplain : ∀ line ∈ "REGISTERS:" :: (rows ++ ["acc = " ++ acc, "pc = " ++ pc]),
      '\n' ∉ line.toList := by
    intro line hline
    simp only [List.mem_cons, List.mem_append, List.not_mem_nil, or_false] at hline
    rcases hline with rfl | hrow | rfl | rfl
    · decide
    · exact (Registers.row_shape hrows line hrow).1
    · rw [String.toList_append, List.mem_append, not_or]
      exact ⟨by decide, Value.newline_notMem_text hacc⟩
    · rw [String.toList_append, List.mem_append, not_or]
      exact ⟨by decide, Value.newline_notMem_text hpc⟩
  rw [← Except.ok.inj h, Text.lines_intercalate (List.cons_ne_nil _ _), List.flatMap_cons,
    Text.lines_intercalate (List.cons_ne_nil _ _), Text.flatMap_lines_of_notMem hplain,
    List.flatMap_cons, Text.lines_of_notMem (by decide)]
  simp

/-- Equal snapshots of machines without line feeds in names and prompts are those of equal
registers and equal instructions. -/
theorem snapshot_determines_machine :
    (∀ (i j : Instruction) (text : String), i.text = .ok text → j.text = .ok text → i = j) ∧
    ∀ (first second : Machine) (text : String),
      first.program.HasPlainPayloads → second.program.HasPlainPayloads →
      first.snapshot = .ok text → second.snapshot = .ok text →
      first.registers = second.registers ∧
        first.program.instructions = second.program.instructions := by
  refine ⟨fun _ _ _ ↦ Instruction.text_injective, ?_⟩
  intro first second text hplain hplain' hfirst hsecond
  obtain ⟨rows, acc, pc, listing, hrows, hacc, hpc, hlisting, hlines⟩ :=
    exists_lines_snapshot hfirst
  obtain ⟨rows', acc', pc', listing', hrows', hacc', hpc', hlisting', hlines'⟩ :=
    exists_lines_snapshot hsecond
  rw [hlines, Text.flatMap_lines_of_notMem (hplain.newline_notMem hlisting),
    Text.flatMap_lines_of_notMem (hplain'.newline_notMem hlisting')] at hlines'
  -- The rows of the numbered registers end with the first line that does not start with an "r".
  have hends (shown : String) : ¬∃ rest, ("acc = " ++ shown).toList = 'r' :: rest := by
    rintro ⟨rest, hrest⟩
    rw [String.toList_append, show "acc = ".toList = 'a' :: "cc = ".toList by decide] at hrest
    exact absurd (List.cons.inj hrest).1 (by decide)
  obtain ⟨rfl, haccs, hrest⟩ := eq_of_append_cons_eq
    (fun line hline ↦ (Registers.row_shape hrows line hline).2)
    (fun line hline ↦ (Registers.row_shape hrows' line hline).2) (hends acc) (hends acc')
    (List.cons.inj hlines').2
  obtain ⟨hpcs, hlistings⟩ := List.cons.inj hrest
  rw [String.append_right_inj] at haccs hpcs
  subst haccs hpcs
  obtain rfl := (List.cons.inj hlistings).2
  have hr : first.registers.r = second.registers.r :=
    eq_of_rows Registers.row_injective hrows hrows'
  have hacc : first.registers.acc = second.registers.acc := Value.text_injective hacc hacc'
  have hpc : first.registers.pc = second.registers.pc := Value.text_injective hpc hpc'
  rw [hpc] at hlisting
  have hinstructions : first.program.instructions.toList = second.program.instructions.toList :=
    eq_of_rows (Program.row_injective second.registers.pc) hlisting hlisting'
  refine ⟨?_, Array.toList_inj.mp hinstructions⟩
  calc first.registers
      = ⟨first.registers.r, first.registers.acc, first.registers.pc⟩ := rfl
    _ = second.registers := by rw [hr, hacc, hpc]

/-- A machine that is back at its loop's label has the snapshot and the registers it had there. -/
theorem snapshot_of_loop :
    let program : Program := ⟨#[.label "a", .jump "a"], [("a", 0)], rfl, by decide,
      Labels.targets_of_undefined? rfl⟩
    let machine := start program { r := [.bool true] }
    let round := machine.step.1.step.1
    ∃ text, machine.snapshot = .ok text ∧ round.snapshot = .ok text ∧
      machine.registers = round.registers ∧ round.steps = 2 := by
  intro program machine round
  have hplain : program.HasPlainPayloads := by
    intro i hmem
    rcases List.mem_pair.mp hmem with rfl | rfl
    · refine ⟨?_, List.not_mem_nil⟩
      rintro name ⟨⟩
      decide
    · exact ⟨nofun, List.not_mem_nil⟩
  have hrenders : machine.Renders := by
    rw [renders_iff]
    refine ⟨⟨List.forall_mem_singleton.mpr ⟨_, rfl⟩, Value.exists_text_zero,
      Value.exists_text_zero⟩, ?_⟩
    intro i hmem
    rcases List.mem_pair.mp hmem with rfl | rfl
    · exact ⟨_, rfl⟩
    · exact ⟨_, rfl⟩
  obtain ⟨text, hsnapshot⟩ := hrenders
  exact ⟨text, hsnapshot, hsnapshot,
    (snapshot_determines_machine.2 machine round text hplain hplain hsnapshot hsnapshot).1, rfl⟩

end Machine

end Accumulator
