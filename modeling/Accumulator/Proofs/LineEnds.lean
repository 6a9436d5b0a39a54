import Accumulator.Proofs.Joining

/-!
Line ends. A source text with a carriage return in front of every line feed is read like the text
itself. Every recogniser takes the same of both and leaves what follows, again with the carriage
returns (`label?_crlf`, `command?_crlf`), so the items are the same but for the text of an unknown
one (`items_crlf`). A fault tells neither: its command is stripped of blanks, and its line is
counted by line feeds.
-/

set_option autoImplicit false
set_option relaxedAutoImplicit false

namespace Accumulator

namespace Text

/-! ### Texts -/

/-- The text with a carriage return in front of every line feed. -/
def crlf (text : List Char) : List Char :=
  text.flatMap fun c ↦ if c = '\n' then ['\r', '\n'] else [c]

@[simp] theorem crlf_nil : crlf [] = [] := rfl

@[simp] theorem crlf_newline (text : List Char) :
    crlf ('\n' :: text) = '\r' :: '\n' :: crlf text := rfl

theorem crlf_cons {c : Char} (hc : c ≠ '\n') (text : List Char) :
    crlf (c :: text) = c :: crlf text := by
  rw [crlf, List.flatMap_cons, if_neg hc]
  rfl

theorem crlf_append (first rest : List Char) : crlf (first ++ rest) = crlf first ++ crlf rest :=
  List.flatMap_append

theorem crlf_of_no_newline {text : List Char} (h : '\n' ∉ text) : crlf text = text := by
  induction text with
  | nil => rfl
  | cons c text ih =>
    obtain ⟨hc, htext⟩ := List.ne_and_not_mem_of_not_mem_cons h
    rw [crlf_cons hc.symm, ih htext]

theorem count_newline_crlf (text : List Char) : (crlf text).count '\n' = text.count '\n' := by
  induction text with
  | nil => rfl
  | cons c text ih =>
    by_cases hc : c = '\n'
    · rw [hc, crlf_newline, List.count_cons_of_ne (by decide), List.count_cons_self, ih,
        List.count_cons_self]
    · rw [crlf_cons hc, List.count_cons, ih, List.count_cons]

theorem newline_notMem_expandedChar {c : Char} (hc : c ≠ '\n') (column : Nat) :
    '\n' ∉ expandedChar column c := by
  unfold expandedChar
  split
  · exact fun hmem ↦ absurd (List.eq_of_mem_replicate hmem) (by decide)
  · exact fun hmem ↦ hc (List.mem_singleton.mp hmem).symm

/-- Both ends of a line begin a new row of columns. -/
theorem expanded_crlf (column : Nat) (text : List Char) :
    expanded column (crlf text) = crlf (expanded column text) := by
  induction text generalizing column with
  | nil => rfl
  | cons c text ih =>
    by_cases hc : c = '\n'
    · rw [hc, crlf_newline, expanded_cons_of_ne (by decide), expanded_cons_of_ne (by decide),
        expanded_cons_of_ne (by decide), crlf_newline, ← ih]
      rfl
    · rw [crlf_cons hc, expanded, expanded, ih, crlf_append,
        crlf_of_no_newline (newline_notMem_expandedChar hc column)]

/-- A first part without line feeds that does not end before one is the same part of both. -/
theorem exists_of_crlf_eq_append {text first rest : List Char} (hfirst : '\n' ∉ first)
    (hlast : first.getLast? ≠ some '\r') (h : crlf text = first ++ rest) :
    ∃ after, text = first ++ after ∧ rest = crlf after := by
  induction first generalizing text with
  | nil => exact ⟨text, rfl, h.symm⟩
  | cons d first ih =>
    obtain ⟨hd, hmore⟩ := List.ne_and_not_mem_of_not_mem_cons hfirst
    cases text with
    | nil => contradiction
    | cons c text =>
      by_cases hc : c = '\n'
      · rw [hc, crlf_newline, List.cons_append, List.cons.injEq] at h
        obtain ⟨rfl, hrest⟩ := h
        -- The carriage return is the last of the part, or the line feed behind it belongs to it.
        cases first with
        | nil => exact absurd rfl hlast
        | cons e first =>
          rw [List.cons_append, List.cons.injEq] at hrest
          exact absurd (List.mem_cons.mpr (.inl hrest.1)) hmore
      · rw [crlf_cons hc, List.cons_append, List.cons.injEq] at h
        obtain ⟨rfl, hrest⟩ := h
        have hothers : first.getLast? ≠ some '\r' := by
          intro heq
          rw [List.getLast?_cons, heq] at hlast
          exact hlast rfl
        obtain ⟨after, rfl, hafter⟩ := ih hmore hothers hrest
        exact ⟨after, rfl, hafter⟩

section

variable {p : Char → Bool}

theorem any_head?_crlf (hp : p '\r' = p '\n') (text : List Char) :
    (crlf text).head?.any p = text.head?.any p := by
  cases text with
  | nil => rfl
  | cons c text =>
    by_cases hc : c = '\n'
    · rw [hc]
      exact hp
    · rw [crlf_cons hc]
      rfl

theorem takeWhile_crlf (hreturn : p '\r' = false) (hnewline : p '\n' = false) (text : List Char) :
    (crlf text).takeWhile p = text.takeWhile p := by
  induction text with
  | nil => rfl
  | cons c text ih =>
    by_cases hc : c = '\n'
    · rw [hc, crlf_newline, List.takeWhile_cons_of_neg (by rw [hreturn]; decide),
        List.takeWhile_cons_of_neg (by rw [hnewline]; decide)]
    · rw [crlf_cons hc, List.takeWhile_cons, List.takeWhile_cons, ih]

theorem dropWhile_crlf (hp : p '\r' = p '\n') (text : List Char) :
    (crlf text).dropWhile p = crlf (text.dropWhile p) := by
  induction text with
  | nil => rfl
  | cons c text ih =>
    by_cases hc : c = '\n'
    · rw [hc, crlf_newline, List.dropWhile_cons, List.dropWhile_cons, List.dropWhile_cons, hp, ih]
      cases p '\n' <;> rfl
    · rw [crlf_cons hc, List.dropWhile_cons, List.dropWhile_cons, ih]
      split
      · rfl
      · rw [crlf_cons hc]

end

/-- Blanks at the end are stripped. -/
theorem strip_append {ending : List Char} (h : ∀ c ∈ ending, isBlank c = true)
    (text : List Char) : strip (text ++ ending) = strip text := by
  unfold strip
  rw [List.dropWhile_append]
  split
  · rename_i hempty
    rw [List.isEmpty_iff.mp hempty, List.dropWhile_eq_nil_iff.mpr h]
  · rw [List.reverse_append, List.dropWhile_append_of_pos
      (fun c hc ↦ h c (List.mem_reverse.mp hc))]

/-- The first line has the carriage return at its end, unless no line feed follows it. -/
theorem exists_takeWhile_newline_crlf (text : List Char) :
    ∃ ending, (crlf text).takeWhile (· != '\n') = text.takeWhile (· != '\n') ++ ending ∧
      ∀ c ∈ ending, c = '\r' := by
  induction text with
  | nil => exact ⟨[], rfl, by simp⟩
  | cons c text ih =>
    by_cases hc : c = '\n'
    · exact ⟨['\r'], by rw [hc]; rfl, by simp⟩
    · obtain ⟨ending, htext, hending⟩ := ih
      have hother : (c != '\n') = true := bne_iff_ne.mpr hc
      refine ⟨ending, ?_, hending⟩
      rw [crlf_cons hc, List.takeWhile_cons, List.takeWhile_cons, if_pos hother, if_pos hother,
        htext]
      rfl

theorem strip_firstLine_crlf (text : List Char) :
    strip ((crlf text).takeWhile (· != '\n')) = strip (text.takeWhile (· != '\n')) := by
  obtain ⟨ending, htext, hending⟩ := exists_takeWhile_newline_crlf text
  rw [htext, strip_append]
  intro c hc
  rw [hending c hc]
  decide

end Text

namespace Assembly

open Text (crlf crlf_cons crlf_append)

/-! ### Parts of statements -/

theorem identifier?_crlf (text : List Char) :
    identifier? (crlf text) = (identifier? text).map (Prod.map id crlf) := by
  cases text with
  | nil => rfl
  | cons c text =>
    by_cases hc : c = '\n'
    · rw [hc]
      rfl
    · rw [crlf_cons hc, identifier?, identifier?, Text.takeWhile_crlf (by decide) (by decide),
        Text.dropWhile_crlf (by decide)]
      split <;> rfl

theorem skipSpaces_crlf (text : List Char) : skipSpaces (crlf text) = crlf (skipSpaces text) :=
  Text.dropWhile_crlf (by decide) text

theorem afterSpelling?_crlf {spelling : List Char} (hspelling : ∀ s ∈ spelling, s.isAlpha = true)
    (text : List Char) :
    afterSpelling? spelling (crlf text) = (afterSpelling? spelling text).map crlf := by
  induction spelling generalizing text with
  | nil => rfl
  | cons s spelling ih =>
    obtain ⟨hs, hothers⟩ := List.forall_mem_cons.mp hspelling
    cases text with
    | nil => rfl
    | cons c text =>
      by_cases hc : c = '\n'
      · have hno {d : Char} (hd : (upperCase d).isAlpha = false) : ¬ (upperCase d == s) = true := by
          intro heq
          rw [beq_iff_eq.mp heq, hs] at hd
          contradiction
        rw [hc, Text.crlf_newline, afterSpelling?, if_neg (hno (by decide)), afterSpelling?,
          if_neg (hno (by decide))]
        rfl
      · rw [crlf_cons hc, afterSpelling?, afterSpelling?, ih hothers]
        split <;> rfl

theorem mnemonic?_crlf (behindWord : Bool) (text : List Char) :
    mnemonic? behindWord (crlf text) = (mnemonic? behindWord text).map (Prod.map id crlf) := by
  unfold mnemonic?
  split
  · rfl
  · rw [List.map_findSome?]
    refine congrArg (Mnemonic.all.findSome? ·) (funext fun m ↦ ?_)
    rw [Function.comp_apply, afterSpelling?_crlf fun _ ↦ Mnemonic.isAlpha_of_mem_spelling]
    cases afterSpelling? m.spelling text with
    | none => rfl
    | some rest =>
      change (if (crlf rest).head?.any continuesMnemonic then none else some (m, crlf rest)) =
        (if rest.head?.any continuesMnemonic then none else some (m, rest)).map (Prod.map id crlf)
      rw [Text.any_head?_crlf (by decide)]
      split <;> rfl

theorem register?_crlf (text : List Char) :
    register? (crlf text) = (register? text).map (Prod.map id crlf) := by
  unfold register?
  rw [Text.takeWhile_crlf (by decide) (by decide), Text.dropWhile_crlf (by decide)]
  dsimp only
  rw [Text.any_head?_crlf (by decide +kernel)]
  split <;> rfl

theorem prompt?_crlf_of_some {text content rest : List Char}
    (h : prompt? text = some (content, rest)) :
    prompt? (crlf text) = some (content, crlf rest) := by
  obtain ⟨lexeme, rfl, hquoted, hcontent⟩ := (prompt?_eq_some_iff _ _ _).mp h
  rw [crlf_append, Text.crlf_of_no_newline hquoted.no_newline]
  exact (prompt?_eq_some_iff _ _ _).mpr ⟨lexeme, rfl, hquoted, hcontent⟩

theorem prompt?_crlf (text : List Char) :
    prompt? (crlf text) = (prompt? text).map (Prod.map id crlf) := by
  cases htext : prompt? text with
  | some taken => exact prompt?_crlf_of_some htext
  | none =>
    rw [Option.map_none, Option.eq_none_iff_forall_ne_some]
    rintro ⟨content, after⟩ hread
    obtain ⟨lexeme, hsplit, hquoted, hcontent⟩ := (prompt?_eq_some_iff _ _ _).mp hread
    have hlast : lexeme.getLast? ≠ some '\r' := by
      rw [hquoted.getLast?]
      decide
    obtain ⟨rest, rfl, -⟩ := Text.exists_of_crlf_eq_append hquoted.no_newline hlast hsplit
    rw [(prompt?_eq_some_iff _ content rest).mpr ⟨lexeme, rfl, hquoted, hcontent⟩] at htext
    contradiction

/-! ### Labels and commands -/

theorem label?_crlf (text : List Char) :
    label? (crlf text) = (label? text).map (Prod.map id crlf) := by
  unfold label?
  rw [identifier?_crlf]
  rcases identifier? text with _ | ⟨name, rest⟩
  · rfl
  · rw [Option.map_some, Prod.map_apply]
    dsimp only
    rw [Text.dropWhile_crlf (by decide), id]
    cases rest.dropWhile isSpacing with
    | nil => rfl
    | cons c rest =>
      by_cases hc : c = '\n'
      · rw [hc]
        rfl
      · rw [crlf_cons hc]
        by_cases hcolon : c = ':'
        · rw [hcolon]
          rfl
        · simp [hcolon]

/-- An item with carriage returns in the text of something unknown. -/
def Item.crlf : Item → Item
  | .unknown text => .unknown (Text.crlf text)
  | item => item

@[simp] theorem Item.endsInWord_crlf (item : Item) : item.crlf.endsInWord = item.endsInWord := by
  cases item <;> rfl

theorem registerItem_crlf (make : Value → Instruction) (text : List Char) :
    registerItem make (crlf text) = (registerItem make text).map (Prod.map Item.crlf crlf) := by
  unfold registerItem
  rw [skipSpaces_crlf, register?_crlf]
  rcases register? (skipSpaces text) with _ | ⟨_ | _, _⟩ <;> rfl

theorem jumpItem_crlf (make : String → Instruction) (text : List Char) :
    jumpItem make (crlf text) = (jumpItem make text).map (Prod.map Item.crlf crlf) := by
  unfold jumpItem
  rw [skipSpaces_crlf, identifier?_crlf]
  rcases identifier? (skipSpaces text) with _ | ⟨_, _⟩ <;> rfl

theorem consoleItem_crlf (make : String → Instruction) (default : String) (text : List Char) :
    consoleItem make default (crlf text) = (consoleItem make default text).map Item.crlf crlf := by
  unfold consoleItem
  rw [skipSpaces_crlf, prompt?_crlf]
  rcases prompt? (skipSpaces text) with _ | ⟨_, _⟩ <;> rfl

theorem operandItem_crlf (m : Mnemonic) (text : List Char) :
    operandItem m (crlf text) = (operandItem m text).map (Prod.map Item.crlf crlf) := by
  cases m with
  | add | sub | sta | lda => exact registerItem_crlf _ _
  | jmp | jz | jge => exact jumpItem_crlf _ _
  | hlt => rfl
  | inp | out => exact congrArg some (consoleItem_crlf _ _ _)

theorem command?_crlf (behindWord : Bool) (text : List Char) :
    command? behindWord (crlf text) = (command? behindWord text).map (Prod.map Item.crlf crlf) := by
  unfold command?
  rw [mnemonic?_crlf]
  rcases mnemonic? behindWord text with _ | ⟨m, rest⟩
  · rfl
  · exact operandItem_crlf m rest

/-! ### Items -/

/-- The rest of a line ends in front of the line feed, hence behind the carriage return, which is
skipped like the line feed. -/
theorem itemsOnto_restOfLine_crlf (done : List Item) (behindWord : Bool) (text : List Char) :
    itemsOnto done behindWord (restOfLine (crlf text)) =
      itemsOnto done behindWord (crlf (restOfLine text)) := by
  induction text with
  | nil => rfl
  | cons c text ih =>
    unfold restOfLine at ih ⊢
    by_cases hc : c = '\n'
    · rw [hc, Text.crlf_newline, List.dropWhile_cons_of_pos (by decide),
        List.dropWhile_cons_of_neg (by decide), List.dropWhile_cons_of_neg (by decide),
        Text.crlf_newline]
      have hskip (c : Char) (hc : isSpacing c = true) (behindWord : Bool) (text : List Char) :
          itemsOnto done behindWord (c :: text) = itemsOnto done false text :=
        itemsOnto_spaces_append hc done behindWord 0 text
      calc itemsOnto done behindWord ('\n' :: crlf text)
          = itemsOnto done false (crlf text) := hskip '\n' rfl _ _
        _ = itemsOnto done false ('\n' :: crlf text) := (hskip '\n' rfl _ _).symm
        _ = itemsOnto done behindWord ('\r' :: '\n' :: crlf text) := (hskip '\r' rfl _ _).symm
    · have hother : (c != '\n') = true := bne_iff_ne.mpr hc
      rw [crlf_cons hc, List.dropWhile_cons, List.dropWhile_cons, if_pos hother, if_pos hother, ih]

theorem comment?_crlf (text : List Char) :
    (∃ rest, comment? text = some (restOfLine rest) ∧
      comment? (crlf text) = some (restOfLine (crlf rest))) ∨
    comment? text = none ∧ comment? (crlf text) = none := by
  cases htext : comment? text with
  | some after =>
    obtain ⟨rest, rfl, rfl⟩ := (comment?_eq_some_iff _ _).mp htext
    exact .inl ⟨rest, rfl, rfl⟩
  | none =>
    refine .inr ⟨rfl, ?_⟩
    rw [Option.eq_none_iff_forall_ne_some]
    intro after hread
    obtain ⟨later, hsplit, -⟩ := (comment?_eq_some_iff _ _).mp hread
    obtain ⟨rest, rfl, -⟩ := Text.exists_of_crlf_eq_append (by decide) (by decide) hsplit
    contradiction

theorem nextItem_crlf (behindWord : Bool) (text : List Char) :
    (nextItem behindWord (crlf text)).1 = (nextItem behindWord text).1.crlf ∧
      ∀ done behindWord', itemsOnto done behindWord' (nextItem behindWord (crlf text)).2 =
        itemsOnto done behindWord' (crlf (nextItem behindWord text).2) := by
  unfold nextItem
  rcases comment?_crlf text with ⟨rest, hcomment, hcomment'⟩ | ⟨hcomment, hcomment'⟩
  · rw [hcomment, hcomment']
    exact ⟨rfl, fun done behindWord' ↦ itemsOnto_restOfLine_crlf done behindWord' rest⟩
  · rw [hcomment, hcomment', label?_crlf]
    dsimp only
    rcases label? text with _ | ⟨name, rest⟩
    · dsimp only [Option.map_none]
      rw [command?_crlf]
      rcases command? behindWord text with _ | ⟨item, rest⟩
      · exact ⟨rfl, fun done behindWord' ↦ itemsOnto_restOfLine_crlf done behindWord' text⟩
      · exact ⟨rfl, fun _ _ ↦ rfl⟩
    · exact ⟨rfl, fun _ _ ↦ rfl⟩

/-- The items of a text are those of the text with carriage returns. -/
theorem itemsOnto_crlf (done : List Item) (behindWord : Bool) (text : List Char) :
    itemsOnto (done.map Item.crlf) behindWord (crlf text) =
      (itemsOnto done behindWord text).map Item.crlf := by
  fun_induction itemsOnto done behindWord text with
  | case1 done behindWord =>
    rw [Text.crlf_nil, itemsOnto, List.map_reverse]
  | case2 done behindWord c rest hc ih =>
    by_cases hnewline : c = '\n'
    · rw [hnewline, Text.crlf_newline, itemsOnto, dif_pos (by decide), itemsOnto,
        dif_pos (by decide), ih]
    · rw [crlf_cons hnewline, itemsOnto, dif_pos hc, ih]
  | case3 done behindWord c rest hc taken ih =>
    have hnewline : c ≠ '\n' := by
      rintro rfl
      contradiction
    obtain ⟨hitem, hrest⟩ := nextItem_crlf behindWord (c :: rest)
    rw [crlf_cons hnewline] at hitem hrest
    rw [crlf_cons hnewline, itemsOnto, dif_neg hc, hrest, hitem, Item.endsInWord_crlf, ← ih]
    rfl

theorem items_crlf (text : List Char) : items (crlf text) = (items text).map Item.crlf :=
  itemsOnto_crlf [] false text

/-! ### Units -/

theorem overlong?_crlf (items : List Item) :
    (items.map Item.crlf).findSome? Item.overlong? = items.findSome? Item.overlong? := by
  rw [List.findSome?_map]
  refine congrArg (items.findSome? ·) (funext fun item ↦ ?_)
  cases item <;> rfl

theorem unknownCommand_crlf (name : String) (source text : List Char) :
    unknownCommand name (crlf source) (crlf text) = unknownCommand name source text := by
  rw [unknownCommand, Text.strip_firstLine_crlf, Text.count_newline_crlf, Text.count_newline_crlf]
  rfl

theorem issueItems_crlf (name : String) (source : List Char) (issued : Array Instruction)
    (items : List Item) :
    issueItems name (crlf source) issued (items.map Item.crlf) =
      issueItems name source issued items := by
  induction items generalizing issued with
  | nil => rfl
  | cons item rest ih =>
    cases item with
    | comment => exact ih issued
    | instruction i => exact ih (issued.push i)
    | overlong cause => exact ih issued
    | unknown text =>
      have hcommand := unknownCommand_crlf name source text
      exact congrArg (fun fault ↦ (issued, Except.error (Failure.fault fault))) hcommand

/-- The unit with a carriage return in front of every line feed. -/
def SourceUnit.crlf (unit : SourceUnit) : SourceUnit where
  name := unit.name
  contents := String.ofList (Text.crlf unit.contents.toList)

theorem SourceUnit.source_crlf (unit : SourceUnit) : unit.crlf.source = Text.crlf unit.source := by
  rw [source, crlf, String.toList_ofList, Text.expandTabs_eq, Text.expanded_crlf,
    ← Text.expandTabs_eq]
  rfl

theorem SourceUnit.issue_crlf (unit : SourceUnit) (issued : Array Instruction) :
    unit.crlf.issue issued = unit.issue issued := by
  dsimp only [issue]
  rw [source_crlf, items_crlf, overlong?_crlf, issueItems_crlf]
  rfl

theorem issueUnits_crlf (units : List SourceUnit) (issued : Array Instruction) :
    issueUnits issued (units.map SourceUnit.crlf) = issueUnits issued units := by
  induction units generalizing issued with
  | nil => rfl
  | cons unit rest ih =>
    rw [List.map_cons, issueUnits, issueUnits, SourceUnit.issue_crlf]
    simp only [ih]

/-- Units assemble alike with a carriage return in front of every line feed: to the same
instructions or with the same failure. -/
theorem line_ends_do_not_matter (units : List SourceUnit) :
    assemble (units.map SourceUnit.crlf) = assemble units := by
  rw [assemble, assemble, issueUnits_crlf]

end Assembly

end Accumulator
