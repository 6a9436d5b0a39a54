import Accumulator.Proofs.Joining
import Accumulator.Proofs.TabStops

/-!
Indentation. Spaces at the beginning of lines (`Text.indented`) move what a scan takes from place to
place, and it takes the same there (`Takes.indented`), but for one thing: a quoted prompt is read
with its tabs expanded, and a tab may be wider at the new column. So the instructions are the same
up to their prompts, and altogether the same exactly if each tab in a prompt stays as wide as it was
(`Scan.indented`).
-/

set_option autoImplicit false
set_option relaxedAutoImplicit false

namespace Accumulator

namespace Text

variable {margin : Nat → Nat} {line : Nat}

/-- The text from somewhere on a line on, with spaces in front of all later lines, for each line as
many as its margin. -/
def indentFrom (margin : Nat → Nat) : Nat → List Char → List Char
  | _, [] => []
  | line, c :: rest =>
      if c = '\n' then
        '\n' :: (List.replicate (margin (line + 1)) ' ' ++ indentFrom margin (line + 1) rest)
      else c :: indentFrom margin line rest

/-- The text with spaces in front of every line. -/
def indented (margin : Nat → Nat) (text : List Char) : List Char :=
  List.replicate (margin 0) ' ' ++ indentFrom margin 0 text

@[simp] theorem indentFrom_nil (margin : Nat → Nat) (line : Nat) :
    indentFrom margin line [] = [] := rfl

theorem indentFrom_newline (margin : Nat → Nat) (line : Nat) (text : List Char) :
    indentFrom margin line ('\n' :: text) =
      '\n' :: (List.replicate (margin (line + 1)) ' ' ++ indentFrom margin (line + 1) text) := rfl

theorem indentFrom_cons {c : Char} (hc : c ≠ '\n') (text : List Char) :
    indentFrom margin line (c :: text) = c :: indentFrom margin line text := by
  rw [indentFrom, if_neg hc]

theorem indentFrom_append (margin : Nat → Nat) (line : Nat) (first rest : List Char) :
    indentFrom margin line (first ++ rest) =
      indentFrom margin line first ++ indentFrom margin (line + first.count '\n') rest := by
  induction first generalizing line with
  | nil => rfl
  | cons c first ih =>
    by_cases hc : c = '\n'
    · rw [hc, List.cons_append, indentFrom_newline, indentFrom_newline, ih, List.count_cons_self,
        List.cons_append, List.append_assoc, Nat.add_assoc, Nat.add_comm 1]
    · rw [List.cons_append, indentFrom_cons hc, indentFrom_cons hc, ih,
        List.count_cons_of_ne hc, List.cons_append]

theorem indentFrom_of_no_newline {text : List Char} (h : '\n' ∉ text) :
    indentFrom margin line text = text := by
  induction text with
  | nil => rfl
  | cons c text ih =>
    obtain ⟨hc, htext⟩ := List.ne_and_not_mem_of_not_mem_cons h
    rw [indentFrom_cons hc.symm, ih htext]

theorem indentFrom_append_of_no_newline {first : List Char} (h : '\n' ∉ first)
    (rest : List Char) :
    indentFrom margin line (first ++ rest) = first ++ indentFrom margin line rest := by
  rw [indentFrom_append, indentFrom_of_no_newline h, List.count_eq_zero_of_not_mem h, Nat.add_zero]

/-- What is taken at a place and what follows it. -/
theorem indentFrom_place_append (margin : Nat → Nat) (before lexeme rest : List Char) :
    indentFrom margin (before.count '\n') (lexeme ++ rest) =
      indentFrom margin (before.count '\n') lexeme ++
        indentFrom margin ((before ++ lexeme).count '\n') rest := by
  rw [indentFrom_append, List.count_append]

theorem mem_indentFrom {text : List Char} {c : Char} (h : c ∈ indentFrom margin line text) :
    c ∈ text ∨ c = ' ' := by
  induction text generalizing line with
  | nil => exact .inl h
  | cons d text ih =>
    have hlater {next : Nat} (h : c ∈ indentFrom margin next text) : c ∈ d :: text ∨ c = ' ' :=
      (ih h).imp_left (List.mem_cons_of_mem d)
    by_cases hd : d = '\n'
    · rw [hd, indentFrom_newline, List.mem_cons, List.mem_append] at h
      rcases h with rfl | hspace | h
      · exact .inl (hd ▸ List.mem_cons_self)
      · exact .inr (List.eq_of_mem_replicate hspace)
      · exact hlater h
    · rw [indentFrom_cons hd, List.mem_cons] at h
      rcases h with rfl | h
      · exact .inl List.mem_cons_self
      · exact hlater h

theorem indented_append (margin : Nat → Nat) (first rest : List Char) :
    indented margin (first ++ rest) =
      indented margin first ++ indentFrom margin (first.count '\n') rest := by
  rw [indented, indentFrom_append, Nat.zero_add, ← List.append_assoc]
  rfl

/-- A part of a line moves as it is. -/
theorem indented_append_of_no_newline {last : List Char} (h : '\n' ∉ last)
    (first : List Char) : indented margin (first ++ last) = indented margin first ++ last := by
  rw [indented_append, indentFrom_of_no_newline h]

theorem head?_indentFrom (margin : Nat → Nat) (line : Nat) (text : List Char) :
    (indentFrom margin line text).head? = text.head? := by
  cases text with
  | nil => rfl
  | cons c text =>
    by_cases hc : c = '\n'
    · rw [hc]
      rfl
    · rw [indentFrom_cons hc]
      rfl

/-- A first part without line feeds is the same part of both. -/
theorem exists_of_indentFrom_eq_append {text first rest : List Char} (hfirst : '\n' ∉ first)
    (h : indentFrom margin line text = first ++ rest) :
    ∃ after, text = first ++ after ∧ rest = indentFrom margin line after := by
  induction first generalizing text with
  | nil => exact ⟨text, rfl, h.symm⟩
  | cons d first ih =>
    obtain ⟨hd, hmore⟩ := List.ne_and_not_mem_of_not_mem_cons hfirst
    have hhead := head?_indentFrom margin line text
    rw [h] at hhead
    obtain ⟨text, rfl⟩ := List.head?_eq_some_iff.mp hhead.symm
    rw [indentFrom_cons hd.symm] at h
    obtain ⟨after, rfl, hafter⟩ := ih hmore (List.cons.inj h).2
    exact ⟨after, rfl, hafter⟩

section

variable {p : Char → Bool}

theorem dropWhile_indentFrom (hp : p '\n' = false) (text : List Char) :
    (indentFrom margin line text).dropWhile p = indentFrom margin line (text.dropWhile p) := by
  induction text with
  | nil => rfl
  | cons c text ih =>
    by_cases hc : c = '\n'
    · have hnewline : ¬ p '\n' = true := Bool.eq_false_iff.mp hp
      rw [hc, indentFrom_newline, List.dropWhile_cons_of_neg hnewline,
        List.dropWhile_cons_of_neg hnewline, indentFrom_newline]
    · rw [indentFrom_cons hc, List.dropWhile_cons, List.dropWhile_cons, ih]
      split
      · rfl
      · rw [indentFrom_cons hc]

/-- Behind space of all sorts the new spaces are not noticed. -/
theorem head?_dropWhile_indentFrom (hspace : p ' ' = true) (hnewline : p '\n' = true)
    (margin : Nat → Nat) (line : Nat) (text : List Char) :
    ((indentFrom margin line text).dropWhile p).head? = (text.dropWhile p).head? := by
  induction text generalizing line with
  | nil => rfl
  | cons c text ih =>
    by_cases hc : c = '\n'
    · have hspaces : ∀ d ∈ List.replicate (margin (line + 1)) ' ', p d = true := fun d hd ↦
        List.eq_of_mem_replicate hd ▸ hspace
      rw [hc, indentFrom_newline, List.dropWhile_cons_of_pos hnewline,
        List.dropWhile_cons_of_pos hnewline, List.dropWhile_append_of_pos hspaces, ih]
    · rw [indentFrom_cons hc, List.dropWhile_cons, List.dropWhile_cons]
      split
      · exact ih line
      · rfl

/-- The new spaces do not move a place behind a character of a sort to which they do not belong. -/
theorem any_getLast?_indented (hspace : p ' ' = false) (hnewline : p '\n' = false)
    {before : List Char} (h : before.getLast?.any p = false) :
    (indented margin before).getLast?.any p = false := by
  have hspaces (first : List Char) (hfirst : first.getLast?.any p = false) (n : Nat) :
      (first ++ List.replicate n ' ').getLast?.any p = false := by
    cases n with
    | zero => rwa [List.replicate_zero, List.append_nil]
    | succ n =>
      rw [List.replicate_succ', ← List.append_assoc, List.getLast?_concat]
      exact hspace
  rcases List.eq_nil_or_concat before with rfl | ⟨init, c, hconcat⟩
  · have hempty := hspaces [] rfl (margin 0)
    rwa [List.nil_append, ← List.append_nil (List.replicate _ _)] at hempty
  · rw [List.concat_eq_append] at hconcat
    subst hconcat
    rw [indented_append]
    by_cases hc : c = '\n'
    · rw [hc, indentFrom_newline, indentFrom_nil, List.append_nil, List.append_cons]
      refine hspaces _ ?_ _
      rw [List.getLast?_concat]
      exact hnewline
    · rw [indentFrom_cons hc, indentFrom_nil, List.getLast?_concat]
      rwa [List.getLast?_concat] at h

end

end Text

/-- The instruction, whatever its prompt. -/
def Instruction.withoutPrompt : Instruction → Instruction
  | .input _ => .input ""
  | .output _ => .output ""
  | i => i

namespace Assembly

open Text (expanded columnAfter TabsAgree indented indentFrom indented_append indentFrom_append
  indentFrom_of_no_newline)

/-- The piece, whatever its prompt. -/
def Piece.withoutPrompt : Piece → Piece
  | .instruction i => .instruction i.withoutPrompt
  | piece => piece

variable {margin : Nat → Nat} {line : Nat} {before text lexeme rest : List Char} {piece : Piece}
  {pieces : List Piece}

/-! ### What stands at a place -/

theorem startsComment_of_indentFrom (h : StartsComment (indentFrom margin line text)) :
    StartsComment text := by
  rw [startsComment_iff_slashes] at h ⊢
  obtain ⟨after, hafter⟩ := h
  obtain ⟨rest, rfl, -⟩ := Text.exists_of_indentFrom_eq_append (by decide) hafter.symm
  exact ⟨rest, rfl⟩

theorem startsLabel_indentFrom_iff :
    StartsLabel (indentFrom margin line text) ↔ StartsLabel text := by
  rw [startsLabel_iff_head, startsLabel_iff_head, Text.head?_indentFrom,
    Text.dropWhile_indentFrom (by decide), Text.head?_dropWhile_indentFrom (by decide) (by decide)]

/-- A row of characters of a sort holds no others. -/
theorem notMem_of_forall {p : Char → Bool} {c : Char} (hp : p c = false) {row : List Char}
    (h : ∀ d ∈ row, p d = true) : c ∉ row :=
  fun hmem ↦ Bool.eq_false_iff.mp hp (h c hmem)

theorem startsPrompt_of_indentFrom (h : StartsPrompt (indentFrom margin line text)) :
    StartsPrompt text := by
  obtain ⟨gap, lexeme, after, hsplit, hgap, hquoted⟩ := h
  have hnewline : '\n' ∉ gap ++ lexeme :=
    List.not_mem_append (notMem_of_forall (by decide) hgap) hquoted.no_newline
  rw [← List.append_assoc] at hsplit
  obtain ⟨rest, rfl, -⟩ := Text.exists_of_indentFrom_eq_append hnewline hsplit
  exact ⟨gap, lexeme, rest, List.append_assoc .., hgap, hquoted⟩

/-! ### Quoted prompts -/

/-- If there is a quote in what is taken at a place, the tabs behind it stay as wide as they are. -/
def KeepsTabs (margin : Nat → Nat) (before lexeme : List Char) : Prop :=
  ∀ lead tail, lexeme = lead ++ '"' :: tail → '"' ∉ lead →
    TabsAgree (columnAfter 0 (before ++ lead)) (columnAfter 0 (indented margin (before ++ lead)))
      ('"' :: tail)

theorem keepsTabs_of_no_quote (h : '"' ∉ lexeme) : KeepsTabs margin before lexeme := by
  rintro lead tail rfl -
  exact absurd (List.mem_append_right lead List.mem_cons_self) h

theorem keepsTabs_append_iff {first : List Char} (h : '"' ∉ first) :
    KeepsTabs margin before (first ++ lexeme) ↔ KeepsTabs margin (before ++ first) lexeme := by
  constructor
  · rintro hkeeps lead tail rfl hlead
    rw [List.append_assoc]
    exact hkeeps (first ++ lead) tail (List.append_assoc ..).symm (List.not_mem_append h hlead)
  · intro hkeeps lead tail hsplit hlead
    -- The first quote stands behind the first part.
    have hfirst : first <+: lead := by
      rcases List.append_eq_append_iff.mp hsplit with ⟨more, rfl, -⟩ | ⟨more, rfl, hmore⟩
      · exact List.prefix_append first more
      · cases more with
        | nil => simp
        | cons c more =>
          obtain ⟨rfl, -⟩ := List.cons.inj hmore
          exact absurd (List.mem_append_right lead List.mem_cons_self) h
    obtain ⟨more, rfl⟩ := hfirst
    rw [List.append_assoc, List.append_cancel_left_eq] at hsplit
    rw [← List.append_assoc]
    exact hkeeps more tail hsplit fun hmem ↦ hlead (List.mem_append_right first hmem)

theorem keepsTabs_quoted_iff (h : IsQuoted lexeme) :
    KeepsTabs margin before lexeme ↔
      TabsAgree (columnAfter 0 before) (columnAfter 0 (indented margin before)) lexeme := by
  obtain ⟨body, rfl, -⟩ := h
  constructor
  · intro hkeeps
    have hfirst := hkeeps [] _ rfl List.not_mem_nil
    rwa [List.append_nil] at hfirst
  · intro hagree lead tail hsplit hlead
    cases lead with
    | nil =>
      rw [List.append_nil, ← List.nil_append ('"' :: tail), ← hsplit]
      exact hagree
    | cons c lead =>
      obtain ⟨rfl, -⟩ := List.cons.inj hsplit
      exact absurd List.mem_cons_self hlead

/-! ### Commands -/

theorem withoutPrompt_of_form {m : Mnemonic} {make : String → Instruction} {default : String}
    (h : m.form = .prompt make default) (prompt other : String) :
    (make other).withoutPrompt = (make prompt).withoutPrompt := by
  cases m <;> cases h <;> rfl

theorem make_eq_iff_of_form {m : Mnemonic} {make : String → Instruction} {default : String}
    (h : m.form = .prompt make default) (prompt other : String) :
    make other = make prompt ↔ other = prompt := by
  cases m <;> cases h
  · exact Instruction.input.injEq .. |>.to_iff
  · exact Instruction.output.injEq .. |>.to_iff

theorem IsOperand.indented {m : Mnemonic} {operand : List Char}
    (h : IsOperand (columnAfter 0 before) m.form operand rest piece) (margin : Nat → Nat)
    (line : Nat) :
    ∃ moved, IsOperand (columnAfter 0 (indented margin before)) m.form operand
        (indentFrom margin line rest) moved ∧
      moved.withoutPrompt = piece.withoutPrompt ∧
      (moved = piece ↔ KeepsTabs margin before operand) := by
  have hsame (hnone : '"' ∉ operand) : piece = piece ↔ KeepsTabs margin before operand :=
    iff_of_true rfl (keepsTabs_of_no_quote hnone)
  generalize hform : m.form = form at h
  cases h with
  | register hgap hne hdigits hend =>
    refine ⟨_, .register hgap hne hdigits ?_, rfl, hsame ?_⟩
    · rwa [Text.head?_indentFrom]
    · exact List.not_mem_append (notMem_of_forall (by decide) hgap)
        (notMem_of_forall (by decide) hdigits)
  | target hgap hname hend =>
    refine ⟨_, .target hgap hname ?_, rfl, hsame ?_⟩
    · rwa [Text.head?_indentFrom]
    · exact List.not_mem_append (notMem_of_forall (by decide) hgap)
        (notMem_of_forall (by decide) hname.part)
  | @prompt make default gap lexeme content _ hgap hquoted hcontent =>
    -- The only operand that is read with its tabs expanded.
    obtain ⟨moved, hmoved⟩ := ((isQuoted_expanded_iff
      (columnAfter (columnAfter 0 (indented margin before)) gap) lexeme).mpr hquoted).exists_prompt?
    refine ⟨_, .prompt hgap hquoted hmoved, ?_, ?_⟩
    · exact congrArg Piece.instruction (withoutPrompt_of_form hform _ _)
    · rw [← Text.columnAfter_append] at hcontent hmoved
      rw [keepsTabs_append_iff (notMem_of_forall (by decide) hgap), keepsTabs_quoted_iff hquoted,
        Text.indented_append_of_no_newline (notMem_of_forall (by decide) hgap),
        ← prompt_eq_iff_tabsAgree hcontent hmoved, Piece.instruction.injEq,
        make_eq_iff_of_form hform, String.ofList_inj]
  | noPrompt hnone =>
    exact ⟨_, .noPrompt fun h ↦ hnone (startsPrompt_of_indentFrom h), rfl, hsame List.not_mem_nil⟩
  | plain => exact ⟨_, .plain, rfl, hsame List.not_mem_nil⟩

theorem IsOperand.no_newline {m : Mnemonic} {column : Nat} {operand : List Char}
    (h : IsOperand column m.form operand rest piece) : '\n' ∉ operand := by
  generalize m.form = form at h
  cases h with
  | register hgap _ hdigits _ =>
    exact List.not_mem_append (notMem_of_forall (by decide) hgap)
      (notMem_of_forall (by decide) hdigits)
  | target hgap hname _ =>
    exact List.not_mem_append (notMem_of_forall (by decide) hgap)
      (notMem_of_forall (by decide) hname.part)
  | prompt hgap hquoted _ =>
    exact List.not_mem_append (notMem_of_forall (by decide) hgap) hquoted.no_newline
  | noPrompt => exact List.not_mem_nil
  | plain => exact List.not_mem_nil

theorem IsSpelled.notMem {m : Mnemonic} {word : List Char} (h : IsSpelled m word) {c : Char}
    (hc : (upperCase c).isAlpha = false) : c ∉ word :=
  fun hmem ↦ Bool.eq_false_iff.mp hc (h.isAlpha c hmem)

theorem IsCommand.indented (h : IsCommand before lexeme rest piece) (margin : Nat → Nat)
    (line : Nat) :
    ∃ moved, IsCommand (indented margin before) lexeme (indentFrom margin line rest) moved ∧
      moved.withoutPrompt = piece.withoutPrompt ∧
      (moved = piece ↔ KeepsTabs margin before lexeme) := by
  obtain ⟨hword, hbehind, hend, hoperand⟩ := h
  rename_i m word operand
  have hnewline : '\n' ∉ word := hword.notMem (by decide)
  obtain ⟨moved, hmoved, hprompt, hkeeps⟩ := hoperand.indented margin line
  rw [Text.indented_append_of_no_newline hnewline] at hmoved
  refine ⟨moved, .intro hword ?_ ?_ hmoved, hprompt, ?_⟩
  · exact Text.any_getLast?_indented (by decide) (by decide) hbehind
  · rwa [← Text.indentFrom_append_of_no_newline hoperand.no_newline, Text.head?_indentFrom]
  · rw [hkeeps, keepsTabs_append_iff (hword.notMem (by decide))]

theorem IsCommand.no_newline (h : IsCommand before lexeme rest piece) : '\n' ∉ lexeme := by
  obtain ⟨hword, -, -, hoperand⟩ := h
  exact List.not_mem_append (hword.notMem (by decide)) hoperand.no_newline

theorem IsCommand.ne_comment (h : IsCommand before lexeme rest piece) : piece ≠ .comment := by
  obtain ⟨-, -, -, hoperand⟩ := h
  rename_i m word operand
  generalize m.form = form at hoperand
  cases hoperand with
  | register =>
    unfold registerPiece
    split <;> simp
  | target | prompt | noPrompt | plain => simp

/-! ### Moving scans -/

/-- What is taken at a place of the text is taken at the place it has moved to. -/
theorem Takes.indented (h : Takes before lexeme rest piece) (margin : Nat → Nat) :
    ∃ moved, Takes (indented margin before) (indentFrom margin (before.count '\n') lexeme)
        (indentFrom margin ((before ++ lexeme).count '\n') rest) moved ∧
      moved.withoutPrompt = piece.withoutPrompt ∧
      (moved = piece ↔ (piece ≠ .comment → KeepsTabs margin before lexeme)) := by
  have hcomment (hnone : ¬ StartsComment (lexeme ++ rest)) :
      ¬ StartsComment (indentFrom margin (before.count '\n') lexeme ++
        indentFrom margin ((before ++ lexeme).count '\n') rest) := by
    rw [← Text.indentFrom_place_append]
    exact fun hstarts ↦ hnone (startsComment_of_indentFrom hstarts)
  have hlabel (hnone : ¬ StartsLabel (lexeme ++ rest)) :
      ¬ StartsLabel (indentFrom margin (before.count '\n') lexeme ++
        indentFrom margin ((before ++ lexeme).count '\n') rest) := by
    rwa [← Text.indentFrom_place_append, startsLabel_indentFrom_iff]
  cases h with
  | comment h =>
    obtain ⟨remark, rfl, hremark, hend⟩ := h
    have hnewline : '\n' ∉ '/' :: '/' :: remark := by simp [hremark]
    refine ⟨.comment, .comment ⟨remark, indentFrom_of_no_newline hnewline, hremark, ?_⟩, rfl,
      iff_of_true rfl fun hne ↦ absurd rfl hne⟩
    rwa [Text.head?_indentFrom]
  | label hnone h =>
    -- The gap may reach over line ends and so be given spaces itself.
    obtain ⟨gap, rfl, hname, hgap⟩ := h
    rename_i name
    have hnewline : '\n' ∉ name := notMem_of_forall (by decide) hname.part
    refine ⟨_, .label (hcomment hnone)
      ⟨indentFrom margin (before.count '\n') gap, ?_, hname, ?_⟩, rfl,
      iff_of_true rfl fun _ ↦ keepsTabs_of_no_quote ?_⟩
    · rw [Text.indentFrom_append_of_no_newline hnewline, indentFrom_append]
      rfl
    · intro c hc
      rcases Text.mem_indentFrom hc with hmem | rfl
      · exact hgap c hmem
      · rfl
    · exact List.not_mem_append (notMem_of_forall (by decide) hname.part)
        (List.not_mem_append (notMem_of_forall (by decide) hgap) (by decide))
  | command hnocomment hnolabel h =>
    obtain ⟨moved, hmoved, hprompt, hkeeps⟩ := h.indented margin ((before ++ lexeme).count '\n')
    refine ⟨moved, .command (hcomment hnocomment) (hlabel hnolabel) ?_, hprompt, ?_⟩
    · rwa [indentFrom_of_no_newline h.no_newline]
    · rw [hkeeps]
      exact ⟨fun hkeeps _ ↦ hkeeps, fun hkeeps ↦ hkeeps h.ne_comment⟩

/-! ### Prompts of a scan -/

/-- One thing is taken at a place. -/
theorem Takes.unique {other after : List Char} {found : Piece} (h : Takes before lexeme rest piece)
    (hother : Takes before other after found) (hsplit : lexeme ++ rest = other ++ after) :
    lexeme = other ∧ rest = after ∧ piece = found := by
  have hplace (text : List Char) : Behind before (before.getLast?.any continuesMnemonic) text :=
    .inl rfl
  have hread := (nextItem_of_takes (hplace _) h).symm.trans
    (hsplit ▸ nextItem_of_takes (hplace _) hother)
  obtain ⟨hitem, hrest⟩ := Prod.mk.inj hread
  -- What is left over has the same expansion only if it is the same.
  have hnone {first more rest : List Char}
      (heq : expanded (columnAfter 0 (before ++ first)) (more ++ rest) =
        expanded (columnAfter 0 (before ++ (first ++ more))) rest) : more = [] := by
    rw [Text.expanded_append, ← Text.columnAfter_append, List.append_assoc] at heq
    exact (Text.expanded_eq_nil_iff _ _).mp (List.append_left_eq_self.mp heq)
  have hlexeme : lexeme = other := by
    rcases List.append_eq_append_iff.mp hsplit with ⟨more, rfl, rfl⟩ | ⟨more, rfl, rfl⟩
    · rw [hnone hrest, List.append_nil]
    · rw [hnone hrest.symm, List.append_nil]
  subst hlexeme
  refine ⟨rfl, List.append_cancel_left hsplit, ?_⟩
  rw [← piece_item_of_takes [] h, hitem, piece_item_of_takes [] hother]

/-- A scan from a place on, as long as it comes upon nothing unknown, takes a command with a quoted
prompt: `place` is all that stands before the prompt. -/
inductive Quotes : List Char → List Char → List Char → List Char → Prop
  /-- Only comments hold quotes besides. -/
  | here {before lead tail rest : List Char} {piece : Piece} (hpiece : piece ≠ .comment)
      (hlead : '"' ∉ lead) (h : Takes before (lead ++ '"' :: tail) rest piece) :
      Quotes before (lead ++ '"' :: tail ++ rest) (before ++ lead) ('"' :: tail)
  | skip {before rest place quoted : List Char} {c : Char} (hc : isSpace c = true)
      (hrest : Quotes (before ++ [c]) rest place quoted) : Quotes before (c :: rest) place quoted
  | later {before lexeme rest place quoted : List Char} {piece : Piece}
      (h : Takes before lexeme rest piece) (hrest : Quotes (before ++ lexeme) rest place quoted) :
      Quotes before (lexeme ++ rest) place quoted

theorem not_quotes_nil {place quoted : List Char} : ¬ Quotes before [] place quoted := by
  intro h
  generalize htext : ([] : List Char) = text at h
  cases h with
  | here => simp at htext
  | skip => contradiction
  | later h => exact h.ne_nil (List.append_eq_nil_iff.mp htext.symm).1

theorem quotes_cons_iff {c : Char} (hc : isSpace c = true) {place quoted : List Char} :
    Quotes before (c :: text) place quoted ↔ Quotes (before ++ [c]) text place quoted := by
  have hvisible {lexeme rest : List Char} {piece : Piece} (h : Takes before lexeme rest piece) :
      c :: text ≠ lexeme ++ rest := by
    obtain ⟨d, more, rfl, hd, -⟩ := h.exists_cons
    intro heq
    rw [(List.cons.inj heq).1, hd] at hc
    contradiction
  constructor
  · intro h
    generalize htext : c :: text = whole at h
    cases h with
    | here _ _ h => exact absurd htext (hvisible h)
    | skip _ hrest =>
      cases htext
      exact hrest
    | later h _ => exact absurd htext (hvisible h)
  · exact .skip hc

theorem quotes_append_iff (h : Takes before lexeme rest piece) {place quoted : List Char} :
    Quotes before (lexeme ++ rest) place quoted ↔
      (∃ lead tail, piece ≠ .comment ∧ lexeme = lead ++ '"' :: tail ∧ '"' ∉ lead ∧
        place = before ++ lead ∧ quoted = '"' :: tail) ∨
      Quotes (before ++ lexeme) rest place quoted := by
  constructor
  · intro hquotes
    generalize htext : lexeme ++ rest = whole at hquotes
    cases hquotes with
    | @here _ lead tail _ _ hpiece hlead hother =>
      obtain ⟨rfl, rfl, rfl⟩ := h.unique hother htext
      exact .inl ⟨lead, tail, hpiece, rfl, hlead, rfl, rfl⟩
    | skip hc _ =>
      obtain ⟨c, more, rfl, hvisible, -⟩ := h.exists_cons
      rw [(List.cons.inj htext).1, hc] at hvisible
      contradiction
    | later hother hrest =>
      obtain ⟨rfl, rfl, rfl⟩ := h.unique hother htext
      exact .inr hrest
  · rintro (⟨lead, tail, hpiece, rfl, hlead, rfl, rfl⟩ | hrest)
    · exact .here hpiece hlead h
    · exact .later h hrest

/-- The scan of a text without anything unknown moves with the text: by induction on the scan, where
what is taken first decides for itself whether its prompt changes. -/
theorem Scan.indented (h : Scan before text pieces) (margin : Nat → Nat)
    (hknown : ∀ piece ∈ pieces, piece.unknown? = none) :
    ∃ moved, Scan (indented margin before) (indentFrom margin (before.count '\n') text) moved ∧
      moved.map Piece.withoutPrompt = pieces.map Piece.withoutPrompt ∧
      (moved = pieces ↔ ∀ place quoted, Quotes before text place quoted →
        TabsAgree (columnAfter 0 place) (columnAfter 0 (indented margin place)) quoted) := by
  induction h with
  | done => exact ⟨[], .done, rfl, iff_of_true rfl fun _ _ h ↦ absurd h not_quotes_nil⟩
  | @skip before rest c pieces hc _ ih =>
    obtain ⟨moved, hmoved, hprompts, hsame⟩ := ih hknown
    refine ⟨moved, ?_, hprompts, ?_⟩
    · rw [indented_append] at hmoved
      rw [← List.singleton_append, Text.indentFrom_place_append]
      refine scan_row (fun d hd ↦ ?_) hmoved
      rcases Text.mem_indentFrom hd with hmem | rfl
      · rwa [List.mem_singleton.mp hmem]
      · rfl
    · simp only [quotes_cons_iff hc]
      exact hsame
  | @take before lexeme rest piece pieces hhead h _ ih =>
    obtain ⟨first, hfirst, hprompt, hkeeps⟩ := h.indented margin
    obtain ⟨moved, hmoved, hprompts, hsame⟩ := ih (List.forall_mem_cons.mp hknown).2
    refine ⟨first :: moved, ?_, ?_, ?_⟩
    · rw [indented_append] at hmoved
      rw [Text.indentFrom_place_append]
      refine .take ?_ hfirst hmoved
      rwa [← Text.indentFrom_place_append, Text.head?_indentFrom]
    · rw [List.map_cons, List.map_cons, hprompt, hprompts]
    · rw [List.cons.injEq, hkeeps, hsame]
      simp only [quotes_append_iff h]
      constructor
      · rintro ⟨hhere, hlater⟩ place quoted hquotes
        rcases hquotes with ⟨lead, tail, hpiece, hlexeme, hlead, rfl, rfl⟩ | hquotes
        · exact hhere hpiece lead tail hlexeme hlead
        · exact hlater place quoted hquotes
      · intro hall
        exact ⟨fun hpiece lead tail hlexeme hlead ↦
          hall _ _ (.inl ⟨lead, tail, hpiece, hlexeme, hlead, rfl, rfl⟩),
          fun place quoted hquotes ↦ hall place quoted (.inr hquotes)⟩
  | resume =>
    have hfirst := hknown _ List.mem_cons_self
    contradiction

/-! ### Units -/

theorem sound_of_withoutPrompt {moved : List Piece}
    (h : moved.map Piece.withoutPrompt = pieces.map Piece.withoutPrompt) (hsound : Sound pieces) :
    Sound moved := by
  have hlike {found : Piece} (hfound : found ∈ moved) :
      ∃ piece ∈ pieces, piece.withoutPrompt = found.withoutPrompt :=
    List.mem_map.mp (h ▸ List.mem_map_of_mem hfound)
  have hunknown (piece : Piece) : piece.withoutPrompt.unknown? = piece.unknown? := by
    cases piece <;> rfl
  have hoverlong (piece : Piece) : piece.withoutPrompt.overlong? = piece.overlong? := by
    cases piece <;> rfl
  constructor
  · intro found hfound
    obtain ⟨piece, hpiece, heq⟩ := hlike hfound
    rw [← hunknown, ← heq, hunknown, hsound.known piece hpiece]
  · intro found hfound
    obtain ⟨piece, hpiece, heq⟩ := hlike hfound
    rw [← hoverlong, ← heq, hoverlong, hsound.short piece hpiece]

theorem instruction?_withoutPrompt (piece : Piece) :
    piece.withoutPrompt.instruction? = piece.instruction?.map Instruction.withoutPrompt := by
  cases piece <;> rfl

theorem instructions_withoutPrompt (pieces : List Piece) :
    (pieces.map Piece.withoutPrompt).filterMap Piece.instruction? =
      (pieces.filterMap Piece.instruction?).map Instruction.withoutPrompt := by
  rw [List.filterMap_map, List.map_filterMap]
  exact congrArg (pieces.filterMap ·) (funext instruction?_withoutPrompt)

theorem Piece.eq_of_instruction?_eq {found piece : Piece}
    (hprompt : found.withoutPrompt = piece.withoutPrompt)
    (h : found.instruction? = piece.instruction?) : found = piece := by
  have hplain {piece : Piece} (hnone : piece.instruction? = none) :
      piece.withoutPrompt = piece := by
    cases piece with
    | instruction => contradiction
    | comment | overlong | unknown => rfl
  have hissued {piece : Piece} {i : Instruction} (hsome : piece.instruction? = some i) :
      piece = .instruction i := by
    cases piece with
    | instruction => exact congrArg Piece.instruction (Option.some.inj hsome)
    | comment | overlong | unknown => contradiction
  cases hfound : found.instruction? with
  | none => rw [← hplain hfound, hprompt, hplain (h.symm.trans hfound)]
  | some i => rw [hissued hfound, hissued (h.symm.trans hfound)]

/-- Only in their instructions can pieces differ that are the same up to prompts. -/
theorem eq_of_instructions_eq {moved : List Piece}
    (hprompts : moved.map Piece.withoutPrompt = pieces.map Piece.withoutPrompt)
    (h : moved.filterMap Piece.instruction? = pieces.filterMap Piece.instruction?) :
    moved = pieces := by
  induction pieces generalizing moved with
  | nil => exact List.map_eq_nil_iff.mp hprompts
  | cons piece pieces ih =>
    obtain ⟨found, moved, rfl, hfirst, hrest⟩ := List.map_eq_cons_iff.mp hprompts
    have hinstruction := congrArg Piece.instruction? hfirst
    rw [instruction?_withoutPrompt, instruction?_withoutPrompt] at hinstruction
    cases hfound : found.instruction? with
    | none =>
      rw [hfound, Option.map_none] at hinstruction
      have hpiece : piece.instruction? = none := Option.map_eq_none_iff.mp hinstruction.symm
      rw [List.filterMap_cons_none hfound, List.filterMap_cons_none hpiece] at h
      rw [Piece.eq_of_instruction?_eq hfirst (hfound.trans hpiece.symm), ih hrest h]
    | some i =>
      rw [hfound, Option.map_some] at hinstruction
      obtain ⟨j, hpiece, -⟩ := Option.map_eq_some_iff.mp hinstruction.symm
      rw [List.filterMap_cons_some hfound, List.filterMap_cons_some hpiece, List.cons.injEq] at h
      obtain ⟨rfl, hlater⟩ := h
      rw [Piece.eq_of_instruction?_eq hfirst (hfound.trans hpiece.symm), ih hrest hlater]

/-- The unit with spaces in front of every line. -/
def SourceUnit.indented (margin : Nat → Nat) (unit : SourceUnit) : SourceUnit where
  name := unit.name
  contents := String.ofList (Text.indented margin unit.contents.toList)

/-- A unit that assembles does so with spaces in front of its lines, and to the same instructions up
to their prompts. They are the same altogether exactly if every tab in a quoted prompt is as wide at
its new column as it was. -/
theorem indentation_shows_in_tabs_of_prompts (unit : SourceUnit) (margin : Nat → Nat)
    (instructions : List Instruction) (h : assemble [unit] = .ok instructions) :
    ∃ others, assemble [unit.indented margin] = .ok others ∧
      others.map Instruction.withoutPrompt = instructions.map Instruction.withoutPrompt ∧
      (others = instructions ↔ ∀ place quoted, Quotes [] unit.contents.toList place quoted →
        TabsAgree (columnAfter 0 place) (columnAfter 0 (indented margin place)) quoted) := by
  rw [assemble_singleton, SourceUnit.assemble_eq_ok_iff] at h
  obtain ⟨pieces, hscan, hsound, rfl⟩ := h
  obtain ⟨moved, hmoved, hprompts, hsame⟩ := hscan.indented margin hsound.known
  refine ⟨moved.filterMap Piece.instruction?, ?_, ?_, ?_⟩
  · rw [assemble_singleton, SourceUnit.assemble_eq_ok_iff]
    refine ⟨moved, ?_, sound_of_withoutPrompt hprompts hsound, rfl⟩
    rw [SourceUnit.indented, String.toList_ofList]
    refine scan_row (fun c hc ↦ ?_) ?_
    · rw [List.eq_of_mem_replicate hc]
      rfl
    · rwa [Text.indented, Text.indentFrom_nil, List.append_nil] at hmoved
  · rw [← instructions_withoutPrompt, hprompts, instructions_withoutPrompt]
  · rw [← hsame]
    exact ⟨eq_of_instructions_eq hprompts, fun heq ↦ heq ▸ rfl⟩

/-- A tab is narrower one column further on, and as wide as before eight columns further on. -/
theorem indentation_shows_in_tab_of_output :
    let unit : SourceUnit := { contents := "out \"a\tb\"" }
    let TabsKept (margin : Nat → Nat) : Prop :=
      ∀ place quoted, Quotes [] unit.contents.toList place quoted →
        TabsAgree (columnAfter 0 place) (columnAfter 0 (indented margin place)) quoted
    assemble [unit] = .ok [.output "a  b"] ∧
      (assemble [unit.indented fun _ ↦ 1] = .ok [.output "a b"] ∧ ¬ TabsKept fun _ ↦ 1) ∧
      assemble [unit.indented fun _ ↦ 8] = .ok [.output "a  b"] ∧ TabsKept fun _ ↦ 8 := by
  intro unit TabsKept
  have hunit : assemble [unit] = .ok [.output "a  b"] := by decide +kernel
  have hone : assemble [unit.indented fun _ ↦ 1] = .ok [.output "a b"] := by decide +kernel
  have height : assemble [unit.indented fun _ ↦ 8] = .ok [.output "a  b"] := by decide +kernel
  refine ⟨hunit, ⟨hone, ?_⟩, height, ?_⟩
  · obtain ⟨others, hothers, -, hsame⟩ :=
      indentation_shows_in_tabs_of_prompts unit (fun _ ↦ 1) _ hunit
    rw [hone] at hothers
    cases hothers
    exact hsame.not.mp (by decide)
  · obtain ⟨others, hothers, -, hsame⟩ :=
      indentation_shows_in_tabs_of_prompts unit (fun _ ↦ 8) _ hunit
    rw [height] at hothers
    cases hothers
    exact hsame.mp rfl

end Assembly

end Accumulator
