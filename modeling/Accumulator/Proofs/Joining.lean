import Accumulator.Proofs.Attempts
import Accumulator.Proofs.Lines
import Accumulator.Proofs.Scanning

/-!
Texts joined by line ends. A comment, a command and an operand end with their line, and what opens
the later text could only matter to an unfinished label (`Takes.append_newline`); a text that scans
by itself does not open like the end of a label (`Scan.not_colon`). Hence the pieces of joined texts
are the pieces of one after those of the other (`scan_joined`), and several units assemble like the
one unit that joins them.
-/

set_option autoImplicit false
set_option relaxedAutoImplicit false

namespace Accumulator.Assembly

open Text (columnAfter prefix_of_append_cons)

variable {before other text lexeme rest later : List Char} {piece : Piece}
  {pieces : List Piece}

/-! ### What a line end closes -/

theorem any_head?_append_newline {p : Char → Bool} (hp : p '\n' = false)
    (rest later : List Char) :
    (rest ++ '\n' :: later).head?.any p = rest.head?.any p := by
  cases rest with
  | nil => exact hp
  | cons c rest => rfl

theorem startsComment_iff_slashes (text : List Char) :
    StartsComment text ↔ ['/', '/'] <+: text := by
  constructor
  · rintro ⟨_, rest, rfl, remark, rfl, -⟩
    exact ⟨remark ++ rest, rfl⟩
  · rintro ⟨text, rfl⟩
    obtain ⟨remark, rest, rfl, hremark, hrest, -⟩ := (restOfLine_expanded_iff 0 text _).mp rfl
    exact ⟨'/' :: '/' :: remark, rest, rfl, remark, rfl, hremark, hrest⟩

theorem startsComment_of_append_newline (h : StartsComment (text ++ '\n' :: later)) :
    StartsComment text := by
  rw [startsComment_iff_slashes] at h ⊢
  exact prefix_of_append_cons (by decide) h

theorem IsQuotable.no_newline {body : List Char} (h : IsQuotable body) : '\n' ∉ body := by
  induction h with
  | nil => exact List.not_mem_nil
  | plain hc _ ih => exact List.not_mem_cons_of_ne_of_not_mem hc.2.2.1.symm ih
  | escaped hc _ ih =>
    exact List.not_mem_cons_of_ne_of_not_mem (by decide)
      (List.not_mem_cons_of_ne_of_not_mem hc.symm ih)

theorem IsQuoted.no_newline (h : IsQuoted lexeme) : '\n' ∉ lexeme := by
  obtain ⟨body, rfl, hbody⟩ := h
  simp [hbody.no_newline]

theorem startsPrompt_of_append_newline (h : StartsPrompt (text ++ '\n' :: later)) :
    StartsPrompt text := by
  obtain ⟨gap, lexeme, rest, hsplit, hgap, hquoted⟩ := h
  have hnewline : '\n' ∉ gap ++ lexeme := by
    rw [List.mem_append, not_or]
    exact ⟨fun hmem ↦ absurd (hgap _ hmem) (by decide), hquoted.no_newline⟩
  obtain ⟨after, hafter⟩ := prefix_of_append_cons hnewline
    ⟨rest, (List.append_assoc ..).trans hsplit.symm⟩
  exact ⟨gap, lexeme, after, (List.append_assoc ..) ▸ hafter.symm, hgap, hquoted⟩

/-- A label is found by its first letter and its colon. -/
theorem startsLabel_iff_head (text : List Char) :
    StartsLabel text ↔ text.head?.any isIdentifierStart = true ∧
      ((text.dropWhile isIdentifierPart).dropWhile isSpace).head? = some ':' := by
  constructor
  · rintro ⟨name, _, rest, rfl, gap, rfl, hname, hgap⟩
    have hcolon : (gap ++ ':' :: rest).head?.any isIdentifierPart = false := by
      cases gap with
      | nil => rfl
      | cons c gap =>
        have hc : isIdentifierPart c = false :=
          eq_false_of_isSpace (by decide) (hgap c List.mem_cons_self)
        exact hc
    have hsplit : name ++ (gap ++ [':']) ++ rest = name ++ (gap ++ ':' :: rest) := by simp
    rw [hsplit, ((longest_row_iff _ _ _).mpr ⟨rfl, hname.part, hcolon⟩).2,
      ((longest_row_iff _ _ _).mpr ⟨rfl, hgap, rfl⟩).2]
    obtain ⟨c, others, rfl, hc, -⟩ := hname
    exact ⟨hc, rfl⟩
  · rintro ⟨hstart, hcolon⟩
    cases text with
    | nil => contradiction
    | cons c text =>
      have hc : isIdentifierStart c = true := hstart
      rw [List.dropWhile_cons_of_pos (part_of_start hc)] at hcolon
      obtain ⟨hname, hothers, -⟩ := (longest_row_iff text _ _).mp ⟨rfl, rfl⟩
      obtain ⟨hgap, hspaces, -⟩ := (longest_row_iff (text.dropWhile isIdentifierPart) _ _).mp
        ⟨rfl, rfl⟩
      obtain ⟨rest, hrest⟩ := List.head?_eq_some_iff.mp hcolon
      rw [hrest] at hgap
      refine ⟨c :: text.takeWhile isIdentifierPart, _, rest, ?_, _, rfl,
        ⟨c, _, rfl, hc, hothers⟩, hspaces⟩
      rw [List.append_assoc, List.append_assoc, List.singleton_append, ← hgap, List.cons_append,
        ← hname]

theorem startsLabel_of_append_newline (hlater : (later.dropWhile isSpace).head? ≠ some ':')
    (h : StartsLabel (text ++ '\n' :: later)) : StartsLabel text := by
  rw [startsLabel_iff_head] at h ⊢
  obtain ⟨hstart, hcolon⟩ := h
  rw [any_head?_append_newline (by decide)] at hstart
  refine ⟨hstart, ?_⟩
  -- Behind the name the line end does not belong to it, and behind the space it belongs to that.
  have hname : (text ++ '\n' :: later).dropWhile isIdentifierPart =
      text.dropWhile isIdentifierPart ++ '\n' :: later := by
    rw [List.dropWhile_append]
    split
    · rename_i hempty
      rw [List.isEmpty_iff.mp hempty]
      rfl
    · rfl
  rw [hname, List.dropWhile_append] at hcolon
  split at hcolon
  · rw [List.dropWhile_cons_of_pos (by decide)] at hcolon
    exact absurd hcolon hlater
  · rename_i hne
    rwa [List.head?_append_of_ne_nil _ (List.isEmpty_iff.not.mp hne)] at hcolon

/-! ### What is taken before a line end -/

theorem IsOperand.append_newline {column : Nat} {form : Form} {operand : List Char}
    (h : IsOperand column form operand rest piece) (later : List Char) :
    IsOperand column form operand (rest ++ '\n' :: later) piece := by
  cases h with
  | register hgap hne hdigits hend =>
    refine .register hgap hne hdigits ?_
    rw [any_head?_append_newline (by decide +kernel), hend]
  | target hgap hname hend =>
    refine .target hgap hname ?_
    rw [any_head?_append_newline (by decide), hend]
  | prompt hgap hquoted hcontent => exact .prompt hgap hquoted hcontent
  | noPrompt hnone => exact .noPrompt fun h ↦ hnone (startsPrompt_of_append_newline h)
  | plain => exact .plain

theorem IsCommand.append_newline (h : IsCommand before lexeme rest piece) (later : List Char) :
    IsCommand before lexeme (rest ++ '\n' :: later) piece := by
  obtain ⟨hword, hbehind, hend, hoperand⟩ := h
  refine .intro hword hbehind ?_ (hoperand.append_newline later)
  rw [← List.append_assoc, any_head?_append_newline (by decide), hend]

theorem Takes.append_newline (hlater : (later.dropWhile isSpace).head? ≠ some ':')
    (h : Takes before lexeme rest piece) :
    Takes before lexeme (rest ++ '\n' :: later) piece := by
  have hcomment (hnone : ¬ StartsComment (lexeme ++ rest)) :
      ¬ StartsComment (lexeme ++ (rest ++ '\n' :: later)) := by
    rw [← List.append_assoc]
    exact fun hstarts ↦ hnone (startsComment_of_append_newline hstarts)
  have hlabel (hnone : ¬ StartsLabel (lexeme ++ rest)) :
      ¬ StartsLabel (lexeme ++ (rest ++ '\n' :: later)) := by
    rw [← List.append_assoc]
    exact fun hstarts ↦ hnone (startsLabel_of_append_newline hlater hstarts)
  cases h with
  | comment h =>
    obtain ⟨remark, rfl, hremark, hend⟩ := h
    refine .comment ⟨remark, rfl, hremark, ?_⟩
    rw [← any_ne_newline_iff] at hend ⊢
    rw [any_head?_append_newline (by decide), hend]
  | label hnone h => exact .label (hcomment hnone) h
  | command hnocomment hnolabel h =>
    exact .command (hcomment hnocomment) (hlabel hnolabel) (h.append_newline later)

/-! ### Scans side by side -/

/-- A text without anything unknown does not open like the end of a label. -/
theorem Scan.not_colon (h : Scan before text pieces)
    (hknown : ∀ piece ∈ pieces, piece.unknown? = none) :
    (text.dropWhile isSpace).head? ≠ some ':' := by
  induction h with
  | done => exact Option.some_ne_none _ |>.symm
  | skip hc _ ih =>
    rw [List.dropWhile_cons_of_pos hc]
    exact ih hknown
  | take _ h _ _ =>
    obtain ⟨c, more, rfl, hspace, hcolon⟩ := h.exists_cons
    rw [List.cons_append, List.dropWhile_cons_of_neg (Bool.eq_false_iff.mp hspace)]
    exact fun hhead ↦ hcolon (Option.some.inj hhead)
  | resume =>
    have hfirst := hknown _ List.mem_cons_self
    contradiction

/-- Two places at which the same is taken. -/
structure SamePlace (before other : List Char) : Prop where
  column : columnAfter 0 before = columnAfter 0 other
  behind : before.getLast?.any continuesMnemonic = other.getLast?.any continuesMnemonic

theorem SamePlace.append (h : SamePlace before other) (text : List Char) :
    SamePlace (before ++ text) (other ++ text) where
  column := by rw [Text.columnAfter_append, Text.columnAfter_append, h.column]
  behind := by
    cases htext : text.getLast? with
    | none =>
      rw [List.getLast?_eq_none_iff.mp htext, List.append_nil, List.append_nil, h.behind]
    | some c => rw [List.getLast?_append, List.getLast?_append, htext]; rfl

theorem samePlace_newline (before : List Char) : SamePlace [] (before ++ ['\n']) where
  column := (Text.columnAfter_newline 0 before []).symm
  behind := by
    rw [List.getLast?_concat]
    rfl

theorem Takes.move (hplace : SamePlace before other) (h : Takes before lexeme rest piece) :
    Takes other lexeme rest piece := by
  cases h with
  | comment h => exact .comment h
  | label hnone h => exact .label hnone h
  | command hcomment hlabel h =>
    obtain ⟨hword, hbehind, hend, hoperand⟩ := h
    rename_i word operand
    refine .command hcomment hlabel (.intro hword (hplace.behind ▸ hbehind) hend ?_)
    rw [← (hplace.append word).column]
    exact hoperand

theorem Scan.move (hplace : SamePlace before other)
    (hknown : ∀ piece ∈ pieces, piece.unknown? = none) (h : Scan before text pieces) :
    Scan other text pieces := by
  induction h generalizing other with
  | done => exact .done
  | skip hc _ ih => exact .skip hc (ih (hplace.append _) hknown)
  | take hhead h _ ih =>
    exact .take hhead (h.move hplace) (ih (hplace.append _) (List.forall_mem_cons.mp hknown).2)
  | resume =>
    have hfirst := hknown _ List.mem_cons_self
    contradiction

/-- A text without anything unknown, and another on the lines behind it. -/
theorem Scan.append_newline {more : List Piece} (h : Scan before text pieces)
    (hknown : ∀ piece ∈ pieces, piece.unknown? = none)
    (hcolon : (later.dropWhile isSpace).head? ≠ some ':')
    (hlater : Scan (before ++ text ++ ['\n']) later more) :
    Scan before (text ++ '\n' :: later) (pieces ++ more) := by
  induction h with
  | @done before =>
    rw [List.append_nil] at hlater
    exact .skip (by decide) hlater
  | @skip before rest c pieces hc _ ih =>
    refine .skip hc (ih hknown ?_)
    simpa using hlater
  | @take before lexeme rest piece pieces hhead h _ ih =>
    rw [List.append_assoc]
    refine .take ?_ (h.append_newline hcolon) (ih (List.forall_mem_cons.mp hknown).2 ?_)
    · rw [List.head?_append_of_ne_nil _ h.ne_nil] at hhead ⊢
      exact hhead
    · simpa using hlater
  | resume =>
    have hfirst := hknown _ List.mem_cons_self
    contradiction

theorem scan_joined {texts : List (List Char)} {rows : List (List Piece)}
    (h : List.Forall₂ (fun text pieces ↦ Scan [] text pieces ∧ Sound pieces) texts rows) :
    Scan [] (['\n'].intercalate texts) rows.flatten ∧ Sound rows.flatten := by
  induction h with
  | nil => exact ⟨.done, ⟨by simp, by simp⟩⟩
  | @cons text pieces texts rows hfirst hrest ih =>
    obtain ⟨hscan, hsound⟩ := hfirst
    have hknown : ∀ piece ∈ pieces ++ rows.flatten, piece.unknown? = none :=
      List.forall_mem_append.mpr ⟨hsound.known, ih.2.known⟩
    have hshort : ∀ piece ∈ pieces ++ rows.flatten, piece.overlong? = none :=
      List.forall_mem_append.mpr ⟨hsound.short, ih.2.short⟩
    refine ⟨?_, hknown, hshort⟩
    cases hrest with
    | nil =>
      rw [List.intercalate_singleton, List.flatten_cons, List.flatten_nil, List.append_nil]
      exact hscan
    | cons =>
      rw [List.intercalate_cons_cons, List.append_assoc, List.singleton_append, List.flatten_cons]
      exact hscan.append_newline hsound.known (ih.1.not_colon ih.2.known)
        (ih.1.move (samePlace_newline text) ih.2.known)

/-! ### Units side by side -/

theorem assemble_eq_ok_iff (units : List SourceUnit) (instructions : List Instruction) :
    assemble units = .ok instructions ↔
      ∃ lists, List.Forall₂ (fun unit list ↦ unit.assemble = .ok list) units lists ∧
        instructions = lists.flatten := by
  simp only [assemble_eq_flatten, ← mapM_eq_ok_iff]
  constructor
  · intro h
    cases hlists : units.mapM SourceUnit.assemble with
    | error failure =>
      rw [hlists] at h
      contradiction
    | ok lists =>
      rw [hlists] at h
      exact ⟨lists, rfl, (Except.ok.inj h).symm⟩
  · rintro ⟨lists, hlists, rfl⟩
    rw [hlists]
    rfl

theorem assemble_eq_error_of_first {first last : List SourceUnit} {unit : SourceUnit}
    {failure : Failure} (hfirst : ∀ earlier ∈ first, ∃ list, earlier.assemble = .ok list)
    (hunit : unit.assemble = .error failure) :
    assemble (first ++ unit :: last) = .error failure := by
  rw [assemble_eq_flatten, mapM_eq_error_of_first hfirst hunit]
  rfl

/-- The pieces of units that assemble, unit by unit. -/
theorem exists_rows {units : List SourceUnit} {lists : List (List Instruction)}
    (h : List.Forall₂ (fun unit list ↦ unit.assemble = .ok list) units lists) :
    ∃ rows, List.Forall₂ (fun text pieces ↦ Scan [] text pieces ∧ Sound pieces)
        (units.map (·.contents.toList)) rows ∧
      lists.flatten = rows.flatten.filterMap Piece.instruction? := by
  induction h with
  | nil => exact ⟨[], .nil, rfl⟩
  | cons hfirst _ ih =>
    obtain ⟨pieces, hscan, hsound, rfl⟩ := (SourceUnit.assemble_eq_ok_iff _ _).mp hfirst
    obtain ⟨rows, hrows, hlists⟩ := ih
    refine ⟨pieces :: rows, .cons ⟨hscan, hsound⟩ hrows, ?_⟩
    rw [List.flatten_cons, List.flatten_cons, List.filterMap_append, hlists]

theorem assemble_joined {units : List SourceUnit} {lists : List (List Instruction)}
    (h : List.Forall₂ (fun unit list ↦ unit.assemble = .ok list) units lists) (name : String) :
    SourceUnit.assemble ⟨name, "\n".intercalate (units.map (·.contents))⟩ = .ok lists.flatten := by
  obtain ⟨rows, hrows, hlists⟩ := exists_rows h
  obtain ⟨hscan, hsound⟩ := scan_joined hrows
  refine (SourceUnit.assemble_eq_ok_iff _ _).mpr ⟨rows.flatten, ?_, hsound, hlists⟩
  rw [String.toList_intercalate, List.map_map]
  exact hscan

/-- Several units assemble like the texts one after the other, and like the one text that joins
them; the first that does not assemble by itself decides how all of them fail. -/
theorem assemble_concatenates (units : List SourceUnit) :
    (∀ lists, List.Forall₂ (fun unit list ↦ assemble [unit] = .ok list) units lists →
      assemble units = .ok lists.flatten ∧
        ∀ name, assemble [⟨name, "\n".intercalate (units.map (·.contents))⟩] =
          .ok lists.flatten) ∧
    ∀ first unit last failure, units = first ++ unit :: last →
      (∀ earlier ∈ first, ∃ list, assemble [earlier] = .ok list) →
      assemble [unit] = .error failure → assemble units = .error failure := by
  simp only [assemble_singleton]
  constructor
  · intro lists hlists
    exact ⟨(assemble_eq_ok_iff units _).mpr ⟨lists, hlists, rfl⟩, assemble_joined hlists⟩
  · rintro first unit last failure rfl hfirst hunit
    exact assemble_eq_error_of_first hfirst hunit

/-- A jump and its label stand in two units, side by side or joined. The fault of a second unit hides
that of a third. -/
theorem assemble_concatenates_jump_and_label :
    assemble [⟨"a", "jmp done"⟩, ⟨"b", "done: hlt"⟩] = .ok [.jump "done", .label "done", .halt] ∧
      assemble [⟨"c", "\n".intercalate ["jmp done", "done: hlt"]⟩] =
        .ok [.jump "done", .label "done", .halt] ∧
      assemble [⟨"a", "jmp done"⟩, ⟨"b", "hlt\nx"⟩, ⟨"c", "?"⟩] =
        .error (.fault (.syntaxError "Unknown command x in b" (some 2))) := by
  have hjump : assemble [⟨"a", "jmp done"⟩] = .ok [.jump "done"] := by decide +kernel
  have hlabel : assemble [⟨"b", "done: hlt"⟩] = .ok [.label "done", .halt] := by decide +kernel
  have hunknown : assemble [⟨"b", "hlt\nx"⟩] =
      .error (.fault (.syntaxError "Unknown command x in b" (some 2))) := by decide +kernel
  have hjoined := (assemble_concatenates [⟨"a", "jmp done"⟩, ⟨"b", "done: hlt"⟩]).1
    [[.jump "done"], [.label "done", .halt]] (.cons hjump (.cons hlabel .nil))
  have hfirst : ∀ earlier ∈ [SourceUnit.mk "a" "jmp done"],
      ∃ list, assemble [earlier] = .ok list :=
    List.forall_mem_singleton.mpr ⟨_, hjump⟩
  exact ⟨hjoined.1, hjoined.2 "c",
    (assemble_concatenates _).2 [⟨"a", "jmp done"⟩] _ [⟨"c", "?"⟩] _ rfl hfirst hunknown⟩

end Accumulator.Assembly
