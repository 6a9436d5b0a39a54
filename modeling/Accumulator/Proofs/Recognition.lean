import Accumulator.Proofs.Grammar

/-!
The recognisers against the grammar. Each reads the expansion of a text, and finds there what the
grammar finds in the text itself: comments (`comment?_expanded_iff`), labels
(`label?_expanded_iff`), mnemonics and operands.
-/

set_option autoImplicit false
set_option relaxedAutoImplicit false

namespace Accumulator.Assembly

open Text (expanded columnAfter untabbed)

/-! ### Rows of characters -/

section

variable {p q : Char → Bool}

/-- The longest row at the start of a text stops before a character that does not belong to it. -/
theorem longest_row_iff (text first rest : List Char) :
    (text.takeWhile p = first ∧ text.dropWhile p = rest) ↔
      text = first ++ rest ∧ (∀ c ∈ first, p c = true) ∧ rest.head?.any p = false := by
  constructor
  · rintro ⟨rfl, rfl⟩
    refine ⟨List.takeWhile_append_dropWhile.symm, List.all_eq_true.mp List.all_takeWhile, ?_⟩
    have hstop := List.head?_dropWhile_not p text
    cases h : (text.dropWhile p).head? with
    | none => rfl
    | some c =>
      rw [h] at hstop
      exact hstop
  · rintro ⟨rfl, hfirst, hrest⟩
    rw [List.takeWhile_append_of_pos hfirst, List.dropWhile_append_of_pos hfirst]
    cases rest with
    | nil => exact ⟨List.append_nil first, rfl⟩
    | cons c rest =>
      have hc : ¬ p c = true := Bool.not_eq_true _ ▸ hrest
      rw [List.takeWhile_cons_of_neg hc, List.dropWhile_cons_of_neg hc]
      exact ⟨List.append_nil first, rfl⟩

/-- What follows the longest row in an expansion is the expansion of what follows in the text. -/
theorem dropWhile_expanded_iff (hpq : ∀ c, p (untabbed c) = q c) (column : Nat)
    (text after : List Char) :
    (expanded column text).dropWhile p = after ↔
      ∃ first rest, text = first ++ rest ∧ (∀ c ∈ first, q c = true) ∧
        rest.head?.any q = false ∧ after = expanded (columnAfter column first) rest := by
  rw [Text.dropWhile_expanded, funext hpq]
  constructor
  · rintro rfl
    obtain ⟨hsplit, hfirst, hrest⟩ := (longest_row_iff text _ _).mp ⟨rfl, rfl⟩
    exact ⟨_, _, hsplit, hfirst, hrest, rfl⟩
  · rintro ⟨first, rest, hsplit, hfirst, hrest, rfl⟩
    obtain ⟨rfl, rfl⟩ := (longest_row_iff text _ _).mpr ⟨hsplit, hfirst, hrest⟩
    rfl

end

/-- Where nothing of a wide sort stands, nothing of a narrower one does. -/
theorem any_eq_false_of_imp {p q : Char → Bool} (hpq : ∀ c, p c = true → q c = true)
    {next : Option Char} (h : next.any q = false) : next.any p = false := by
  rw [Option.any_eq_false] at h ⊢
  intro c hc
  have hq := h c hc
  exact Bool.eq_false_iff.mpr fun hp ↦ Bool.eq_false_iff.mp hq (hpq c hp)

theorem isSpacing_untabbed (c : Char) : isSpacing (untabbed c) = isSpace c := by
  unfold untabbed isSpacing isSpace
  split
  · rename_i hc
    subst hc
    decide
  · rename_i hc
    have htab : (c == '\t') = false := by simpa using hc
    rw [htab, Bool.or_false, Bool.or_right_comm]

theorem space_untabbed (c : Char) : (untabbed c == ' ') = isInlineSpace c := by
  unfold untabbed isInlineSpace
  split
  · rename_i hc
    subst hc
    decide
  · rename_i hc
    have htab : (c == '\t') = false := by simpa using hc
    rw [htab, Bool.or_false]

theorem newline_untabbed (c : Char) : (untabbed c != '\n') = (c != '\n') := by
  unfold untabbed
  split
  · rename_i hc
    subst hc
    decide
  · rfl

/-- What space does not belong to. -/
theorem eq_false_of_isSpace {p : Char → Bool} {c : Char}
    (hp : [' ', '\t', '\r', '\n'].any p = false) (h : isSpace c = true) : p c = false := by
  have hmem : c ∈ [' ', '\t', '\r', '\n'] := by simpa [isSpace, or_assoc] using h
  exact Bool.eq_false_iff.mpr (List.any_eq_false.mp hp c hmem)

theorem isSpace_eq_false {p : Char → Bool} {c : Char}
    (hp : [' ', '\t', '\r', '\n'].any p = false) (h : p c = true) : isSpace c = false := by
  rw [Bool.eq_false_iff]
  intro hspace
  exact Bool.eq_false_iff.mp (eq_false_of_isSpace hp hspace) h

/-! ### Lines and comments -/

theorem forall_ne_newline_iff (line : List Char) :
    (∀ c ∈ line, (c != '\n') = true) ↔ '\n' ∉ line := by
  simp only [bne_iff_ne]
  exact ⟨fun h hmem ↦ h _ hmem rfl, fun h c hmem heq ↦ h (heq ▸ hmem)⟩

theorem any_ne_newline_iff (rest : List Char) :
    rest.head?.any (· != '\n') = false ↔ rest.head?.all (· == '\n') = true := by
  cases rest <;> simp

theorem restOfLine_expanded_iff (column : Nat) (text after : List Char) :
    restOfLine (expanded column text) = after ↔
      ∃ line rest, text = line ++ rest ∧ '\n' ∉ line ∧ rest.head?.all (· == '\n') = true ∧
        after = expanded (columnAfter column line) rest := by
  unfold restOfLine
  rw [dropWhile_expanded_iff newline_untabbed]
  simp only [forall_ne_newline_iff, any_ne_newline_iff]

theorem comment?_eq_some_iff (text after : List Char) :
    comment? text = some after ↔ ∃ rest, text = ['/', '/'] ++ rest ∧ restOfLine rest = after := by
  constructor
  · intro h
    unfold comment? at h
    split at h
    · cases h
      exact ⟨_, rfl, rfl⟩
    · contradiction
  · rintro ⟨rest, rfl, rfl⟩
    rfl

theorem comment?_expanded_iff (column : Nat) (text after : List Char) :
    comment? (expanded column text) = some after ↔
      ∃ lexeme rest, text = lexeme ++ rest ∧ IsComment lexeme rest ∧
        after = expanded (columnAfter column lexeme) rest := by
  have hslashes : ∀ c ∈ ['/', '/'], c ≠ ' ' ∧ c ≠ '\t' := by simp
  simp only [comment?_eq_some_iff, Text.expanded_eq_append_iff hslashes]
  constructor
  · rintro ⟨_, ⟨text, rfl, rfl⟩, hafter⟩
    obtain ⟨remark, rest, rfl, hremark, hrest, rfl⟩ := (restOfLine_expanded_iff _ _ _).mp hafter
    exact ⟨'/' :: '/' :: remark, rest, rfl, ⟨remark, rfl, hremark, hrest⟩, rfl⟩
  · rintro ⟨lexeme, rest, rfl, ⟨remark, rfl, hremark, hrest⟩, rfl⟩
    refine ⟨_, ⟨remark ++ rest, rfl, rfl⟩, ?_⟩
    exact (restOfLine_expanded_iff _ _ _).mpr ⟨remark, rest, rfl, hremark, hrest, rfl⟩

/-! ### Identifiers and labels -/

theorem part_of_start {c : Char} (h : isIdentifierStart c = true) : isIdentifierPart c = true := by
  rw [isIdentifierStart, Bool.or_eq_true] at h
  rcases h with hletter | hunderscore
  · simp [isIdentifierPart, Char.isAlphanum, hletter]
  · simp [isIdentifierPart, hunderscore]

theorem IsIdentifier.part {name : List Char} (h : IsIdentifier name) :
    ∀ c ∈ name, isIdentifierPart c = true := by
  obtain ⟨c, others, rfl, hc, hothers⟩ := h
  exact List.forall_mem_cons.mpr ⟨part_of_start hc, hothers⟩

theorem IsIdentifier.visible {name : List Char} (h : IsIdentifier name) :
    ∀ c ∈ name, c ≠ ' ' ∧ c ≠ '\t' := by
  intro c hc
  have hpart := h.part c hc
  constructor
  · rintro rfl
    contradiction
  · rintro rfl
    contradiction

theorem IsIdentifier.ne_nil {name : List Char} (h : IsIdentifier name) : name ≠ [] := by
  obtain ⟨first, others, rfl, -⟩ := h
  exact List.cons_ne_nil first others

theorem identifier?_eq_some_iff (text name rest : List Char) :
    identifier? text = some (name, rest) ↔
      text = name ++ rest ∧ IsIdentifier name ∧ rest.head?.any isIdentifierPart = false := by
  cases text with
  | nil =>
    constructor
    · intro h
      contradiction
    · rintro ⟨h, ⟨first, others, rfl, -⟩, -⟩
      contradiction
  | cons c text =>
    have hrow := longest_row_iff (p := isIdentifierPart) text
    have hcons : identifier? (c :: text) = if isIdentifierStart c then
        some (c :: text.takeWhile isIdentifierPart, text.dropWhile isIdentifierPart)
      else none := rfl
    rw [hcons]
    constructor
    · intro h
      split at h
      · rename_i hc
        cases h
        obtain ⟨hsplit, hothers, hend⟩ := (hrow _ _).mp ⟨rfl, rfl⟩
        exact ⟨congrArg (c :: ·) hsplit, ⟨c, _, rfl, hc, hothers⟩, hend⟩
      · contradiction
    · rintro ⟨h, ⟨first, others, rfl, hfirst, hothers⟩, hend⟩
      obtain ⟨rfl, hsplit⟩ := List.cons.inj h
      obtain ⟨htake, hdrop⟩ := (hrow _ _).mpr ⟨hsplit, hothers, hend⟩
      rw [if_pos hfirst, htake, hdrop]

theorem identifier?_expanded_iff (column : Nat) (text name after : List Char) :
    identifier? (expanded column text) = some (name, after) ↔
      ∃ rest, text = name ++ rest ∧ IsIdentifier name ∧
        rest.head?.any isIdentifierPart = false ∧
        after = expanded (columnAfter column name) rest := by
  rw [identifier?_eq_some_iff]
  constructor
  · rintro ⟨hsplit, hname, hend⟩
    obtain ⟨rest, rfl, rfl⟩ := (Text.expanded_eq_append_iff hname.visible _ _ _).mp hsplit
    rw [Text.any_head?_expanded (by decide)] at hend
    exact ⟨rest, rfl, hname, hend, rfl⟩
  · rintro ⟨rest, rfl, hname, hend, rfl⟩
    refine ⟨(Text.expanded_eq_append_iff hname.visible _ _ _).mpr ⟨rest, rfl, rfl⟩, hname, ?_⟩
    rw [Text.any_head?_expanded (by decide), hend]

theorem label?_eq_some_iff (text name after : List Char) :
    label? text = some (name, after) ↔
      ∃ rest, identifier? text = some (name, rest) ∧ rest.dropWhile isSpacing = ':' :: after := by
  unfold label?
  split
  · rename_i hnone
    simp [hnone]
  · rename_i found rest hsome
    rw [hsome]
    split
    · rename_i colon hcolon
      constructor
      · intro h
        cases h
        exact ⟨rest, rfl, hcolon⟩
      · rintro ⟨other, h, hdrop⟩
        cases h
        rw [hcolon] at hdrop
        cases hdrop
        rfl
    · rename_i hno
      constructor
      · intro h
        contradiction
      · rintro ⟨other, h, hdrop⟩
        cases h
        exact absurd hdrop (hno _)

theorem label?_expanded_iff (column : Nat) (text name after : List Char) :
    label? (expanded column text) = some (name, after) ↔
      ∃ lexeme rest, text = lexeme ++ rest ∧ IsLabel name lexeme ∧
        after = expanded (columnAfter column lexeme) rest := by
  have hcolon : ∀ c ∈ [':'], c ≠ ' ' ∧ c ≠ '\t' := by simp
  simp only [label?_eq_some_iff, identifier?_expanded_iff]
  constructor
  · rintro ⟨_, ⟨text, rfl, hname, -, rfl⟩, hafter⟩
    obtain ⟨gap, text, rfl, hgap, -, hafter⟩ :=
      (dropWhile_expanded_iff isSpacing_untabbed _ _ _).mp hafter
    obtain ⟨rest, rfl, rfl⟩ := (Text.expanded_eq_append_iff hcolon _ _ _).mp hafter.symm
    refine ⟨name ++ (gap ++ [':']), rest, ?_, ⟨gap, rfl, hname, hgap⟩, ?_⟩
    · simp only [List.append_assoc]
    · rw [Text.columnAfter_append, Text.columnAfter_append]
  · rintro ⟨lexeme, rest, rfl, ⟨gap, rfl, hname, hgap⟩, rfl⟩
    refine ⟨_, ⟨gap ++ ':' :: rest, ?_, hname, ?_, rfl⟩, ?_⟩
    · simp only [List.append_assoc, List.singleton_append]
    · cases gap with
      | nil => rfl
      | cons c gap =>
        have hc : isIdentifierPart c = false :=
          eq_false_of_isSpace (by decide) (hgap c List.mem_cons_self)
        exact hc
    · rw [dropWhile_expanded_iff isSpacing_untabbed]
      refine ⟨gap, ':' :: rest, rfl, hgap, rfl, ?_⟩
      rw [Text.expanded_cons_of_ne (by decide), Text.columnAfter_append, Text.columnAfter_append]
      rfl

/-! ### Mnemonics -/

theorem afterSpelling?_eq_some_iff (spelling text rest : List Char) :
    afterSpelling? spelling text = some rest ↔
      ∃ word, text = word ++ rest ∧ word.map upperCase = spelling := by
  induction spelling generalizing text with
  | nil =>
    simp [afterSpelling?, List.map_eq_nil_iff]
  | cons s spelling ih =>
    cases text with
    | nil => simp [afterSpelling?]
    | cons c text =>
      unfold afterSpelling?
      constructor
      · intro h
        split at h
        · rename_i hc
          obtain ⟨word, rfl, rfl⟩ := (ih text).mp h
          exact ⟨c :: word, rfl, congrArg (· :: word.map upperCase) (beq_iff_eq.mp hc)⟩
        · contradiction
      · rintro ⟨word, hsplit, hword⟩
        obtain ⟨d, letters, rfl, hd, hletters⟩ := List.map_eq_cons_iff.mp hword
        obtain ⟨rfl, rfl⟩ := List.cons.inj hsplit
        rw [if_pos (beq_iff_eq.mpr hd)]
        exact (ih _).mpr ⟨letters, rfl, hletters⟩

/-- No mnemonic begins with another one. -/
theorem Mnemonic.eq_of_prefix_spelling {m n : Mnemonic} (h : m.spelling <+: n.spelling) :
    m = n := by
  have hall : ∀ m ∈ Mnemonic.all, ∀ n ∈ Mnemonic.all,
      m.spelling.isPrefixOf n.spelling = true → m = n := by decide
  exact hall m m.mem_all n n.mem_all (List.isPrefixOf_iff_prefix.mpr h)

theorem IsSpelled.unique {m n : Mnemonic} {word other rest more : List Char}
    (hm : IsSpelled m word) (hn : IsSpelled n other) (h : word ++ rest = other ++ more) :
    m = n ∧ rest = more := by
  have heq : m = n := by
    rcases List.prefix_or_prefix_of_prefix (List.prefix_append word rest)
      (h ▸ List.prefix_append other more) with hstart | hstart
    · exact Mnemonic.eq_of_prefix_spelling (hm ▸ hn ▸ hstart.map upperCase)
    · exact (Mnemonic.eq_of_prefix_spelling (hm ▸ hn ▸ hstart.map upperCase)).symm
  have hlength : word.length = other.length := by
    rw [← List.length_map upperCase, hm, heq, ← hn, List.length_map]
  exact ⟨heq, (List.append_inj h hlength).2⟩

/-- One mnemonic at a time. -/
theorem mnemonic_attempt_iff (m n : Mnemonic) (text rest : List Char) :
    ((do
        let rest ← afterSpelling? m.spelling text
        if rest.head?.any continuesMnemonic then none else some (m, rest)) : Option _) =
      some (n, rest) ↔
      m = n ∧ ∃ word, text = word ++ rest ∧ IsSpelled n word ∧
        rest.head?.any continuesMnemonic = false := by
  rw [Option.bind_eq_bind, Option.bind_eq_some_iff]
  constructor
  · rintro ⟨after, hafter, h⟩
    obtain ⟨word, rfl, hword⟩ := (afterSpelling?_eq_some_iff _ _ _).mp hafter
    split at h
    · contradiction
    · rename_i hend
      cases h
      exact ⟨rfl, word, rfl, hword, Bool.eq_false_iff.mpr hend⟩
  · rintro ⟨rfl, word, rfl, hword, hend⟩
    refine ⟨rest, (afterSpelling?_eq_some_iff _ _ _).mpr ⟨word, rfl, hword⟩, ?_⟩
    rw [hend]
    rfl

theorem mnemonic?_eq_some_iff (behindWord : Bool) (text : List Char) (m : Mnemonic)
    (rest : List Char) :
    mnemonic? behindWord text = some (m, rest) ↔
      behindWord = false ∧ ∃ word, text = word ++ rest ∧ IsSpelled m word ∧
        rest.head?.any continuesMnemonic = false := by
  cases behindWord with
  | true => simp [mnemonic?]
  | false =>
    rw [mnemonic?, if_neg Bool.false_ne_true]
    constructor
    · intro h
      obtain ⟨n, -, hn⟩ := List.exists_of_findSome?_eq_some h
      exact ⟨rfl, ((mnemonic_attempt_iff n m text rest).mp hn).2⟩
    · rintro ⟨-, word, hsplit, hword, hend⟩
      have hm := (mnemonic_attempt_iff m m text rest).mpr ⟨rfl, word, hsplit, hword, hend⟩
      cases hfound : Mnemonic.all.findSome? fun m ↦ do
          let rest ← afterSpelling? m.spelling text
          if rest.head?.any continuesMnemonic then none else some (m, rest) with
      | none =>
        have hnone := List.findSome?_eq_none_iff.mp hfound m m.mem_all
        rw [hnone] at hm
        contradiction
      | some found =>
        obtain ⟨n, -, hn⟩ := List.exists_of_findSome?_eq_some hfound
        obtain ⟨-, other, hother, hspelled, -⟩ := (mnemonic_attempt_iff n _ text _).mp hn
        obtain ⟨hm, hrest⟩ := hword.unique hspelled (hsplit.symm.trans hother)
        rw [hm, hrest]

theorem Mnemonic.isAlpha_of_mem_spelling {m : Mnemonic} {c : Char} (h : c ∈ m.spelling) :
    c.isAlpha = true := by
  have hall : ∀ m ∈ Mnemonic.all, m.spelling.all Char.isAlpha = true := by decide
  exact List.all_eq_true.mp (hall m m.mem_all) c h

theorem IsSpelled.isAlpha {m : Mnemonic} {word : List Char} (h : IsSpelled m word) :
    ∀ c ∈ word, (upperCase c).isAlpha = true := by
  intro c hc
  exact Mnemonic.isAlpha_of_mem_spelling (h ▸ List.mem_map_of_mem hc)

theorem IsSpelled.visible {m : Mnemonic} {word : List Char} (h : IsSpelled m word) :
    ∀ c ∈ word, c ≠ ' ' ∧ c ≠ '\t' := by
  intro c hc
  have halpha := h.isAlpha c hc
  constructor
  · rintro rfl
    contradiction
  · rintro rfl
    contradiction

theorem mnemonic?_expanded_iff (behindWord : Bool) (column : Nat) (text : List Char)
    (m : Mnemonic) (after : List Char) :
    mnemonic? behindWord (expanded column text) = some (m, after) ↔
      behindWord = false ∧ ∃ word rest, text = word ++ rest ∧ IsSpelled m word ∧
        rest.head?.any continuesMnemonic = false ∧
        after = expanded (columnAfter column word) rest := by
  rw [mnemonic?_eq_some_iff]
  refine and_congr_right fun _ ↦ ?_
  constructor
  · rintro ⟨word, hsplit, hword, hend⟩
    obtain ⟨rest, rfl, rfl⟩ := (Text.expanded_eq_append_iff hword.visible _ _ _).mp hsplit
    rw [Text.any_head?_expanded (by decide)] at hend
    exact ⟨word, rest, rfl, hword, hend, rfl⟩
  · rintro ⟨word, rest, rfl, hword, hend, rfl⟩
    refine ⟨word, (Text.expanded_eq_append_iff hword.visible _ _ _).mpr ⟨rest, rfl, rfl⟩, hword, ?_⟩
    rw [Text.any_head?_expanded (by decide), hend]

/-! ### Registers and targets -/

theorem isWord_of_isDigit {c : Char} (h : Numeral.isDigit c = true) : Text.isWord c = true := by
  simp only [Numeral.isDigit, Bool.and_eq_true, decide_eq_true_eq, Char.le_def,
    UInt32.le_iff_toNat_le] at h
  have hdigit : Text.alphanumeric.contains c = true :=
    (Text.Ranges.contains_iff _ _).mpr ⟨(0x30, 0x39), List.mem_cons_self, h⟩
  simp [Text.isWord, hdigit]

theorem isWord_space : Text.isWord ' ' = Text.isWord '\t' := by decide +kernel

theorem visible_of_isDigit {digits : List Char} (h : ∀ c ∈ digits, Numeral.isDigit c = true) :
    ∀ c ∈ digits, c ≠ ' ' ∧ c ≠ '\t' := by
  intro c hc
  have hdigit := h c hc
  constructor
  · rintro rfl
    contradiction
  · rintro rfl
    contradiction

theorem skipSpaces_expanded_iff (column : Nat) (text after : List Char) :
    skipSpaces (expanded column text) = after ↔
      ∃ gap rest, text = gap ++ rest ∧ (∀ c ∈ gap, isInlineSpace c = true) ∧
        rest.head?.any isInlineSpace = false ∧
        after = expanded (columnAfter column gap) rest := by
  unfold skipSpaces
  exact dropWhile_expanded_iff space_untabbed column text after

/-- What is found behind the space at the start of an expansion. -/
theorem skipSpaces_expanded_eq_append_iff {first : List Char}
    (hfirst : ∀ c ∈ first, c ≠ ' ' ∧ c ≠ '\t') (hne : first ≠ []) (column : Nat)
    (text after : List Char) :
    skipSpaces (expanded column text) = first ++ after ↔
      ∃ gap rest, text = gap ++ (first ++ rest) ∧ (∀ c ∈ gap, isInlineSpace c = true) ∧
        after = expanded (columnAfter column (gap ++ first)) rest := by
  rw [skipSpaces_expanded_iff]
  constructor
  · rintro ⟨gap, text, rfl, hgap, -, hafter⟩
    obtain ⟨rest, rfl, rfl⟩ := (Text.expanded_eq_append_iff hfirst _ _ _).mp hafter.symm
    exact ⟨gap, rest, rfl, hgap, by rw [Text.columnAfter_append]⟩
  · rintro ⟨gap, rest, rfl, hgap, rfl⟩
    refine ⟨gap, first ++ rest, rfl, hgap, ?_, ?_⟩
    · obtain ⟨c, others, rfl⟩ := List.exists_cons_of_ne_nil hne
      obtain ⟨hspace, htab⟩ := hfirst c List.mem_cons_self
      simp [isInlineSpace, hspace, htab]
    · rw [Text.columnAfter_append]
      exact ((Text.expanded_eq_append_iff hfirst _ _ _).mpr ⟨rest, rfl, rfl⟩).symm

theorem register?_eq_some_iff (text : List Char) (number : Except Numeral.Overlong Nat)
    (rest : List Char) :
    register? text = some (number, rest) ↔
      ∃ digits, text = digits ++ rest ∧ digits ≠ [] ∧
        (∀ c ∈ digits, Numeral.isDigit c = true) ∧ rest.head?.any Text.isWord = false ∧
        number = Numeral.read digits := by
  unfold register?
  dsimp only
  constructor
  · intro h
    split at h
    · contradiction
    · rename_i hno
      cases h
      obtain ⟨hsplit, hdigits, -⟩ := (longest_row_iff text _ _).mp ⟨rfl, rfl⟩
      rw [Bool.or_eq_true, not_or, List.isEmpty_iff] at hno
      exact ⟨_, hsplit, hno.1, hdigits, Bool.eq_false_iff.mpr hno.2, rfl⟩
  · rintro ⟨digits, hsplit, hne, hdigits, hend, rfl⟩
    have hstop : rest.head?.any Numeral.isDigit = false :=
      any_eq_false_of_imp (fun _ ↦ isWord_of_isDigit) hend
    obtain ⟨htake, hdrop⟩ := (longest_row_iff text _ _).mpr ⟨hsplit, hdigits, hstop⟩
    rw [htake, hdrop, if_neg]
    rw [Bool.or_eq_true, not_or, List.isEmpty_iff]
    exact ⟨hne, Bool.eq_false_iff.mp hend⟩

theorem registerItem_of_register? {make : Value → Instruction} {text digits rest : List Char}
    (h : register? (skipSpaces text) = some (Numeral.read digits, rest)) :
    registerItem make text = some ((registerPiece make digits).item, rest) := by
  unfold registerItem registerPiece
  rw [h]
  cases Numeral.read digits <;> rfl

theorem registerItem_eq_some_iff (make : Value → Instruction) (text : List Char) (item : Item)
    (rest : List Char) :
    registerItem make text = some (item, rest) ↔
      ∃ digits, skipSpaces text = digits ++ rest ∧ digits ≠ [] ∧
        (∀ c ∈ digits, Numeral.isDigit c = true) ∧ rest.head?.any Text.isWord = false ∧
        item = (registerPiece make digits).item := by
  constructor
  · intro h
    cases hregister : register? (skipSpaces text) with
    | none =>
      rw [registerItem, hregister] at h
      contradiction
    | some found =>
      obtain ⟨number, after⟩ := found
      obtain ⟨digits, hsplit, hne, hdigits, hend, rfl⟩ :=
        (register?_eq_some_iff _ _ _).mp hregister
      rw [registerItem_of_register? hregister] at h
      cases h
      exact ⟨digits, hsplit, hne, hdigits, hend, rfl⟩
  · rintro ⟨digits, hsplit, hne, hdigits, hend, rfl⟩
    exact registerItem_of_register?
      ((register?_eq_some_iff _ _ _).mpr ⟨digits, hsplit, hne, hdigits, hend, rfl⟩)

theorem registerItem_expanded_iff (make : Value → Instruction) (column : Nat) (text : List Char)
    (item : Item) (after : List Char) :
    registerItem make (expanded column text) = some (item, after) ↔
      ∃ lexeme rest piece, text = lexeme ++ rest ∧
        IsOperand column (.register make) lexeme rest piece ∧ item = piece.item ∧
        after = expanded (columnAfter column lexeme) rest := by
  rw [registerItem_eq_some_iff]
  constructor
  · rintro ⟨digits, hsplit, hne, hdigits, hend, rfl⟩
    obtain ⟨gap, rest, rfl, hgap, rfl⟩ :=
      (skipSpaces_expanded_eq_append_iff (visible_of_isDigit hdigits) hne _ _ _).mp hsplit
    rw [Text.any_head?_expanded isWord_space] at hend
    exact ⟨gap ++ digits, rest, _, (List.append_assoc ..).symm, .register hgap hne hdigits hend,
      rfl, rfl⟩
  · rintro ⟨_, rest, _, rfl, hoperand, rfl, rfl⟩
    cases hoperand with
    | @register _ gap digits _ hgap hne hdigits hend =>
      refine ⟨digits, ?_, hne, hdigits, ?_, rfl⟩
      · exact (skipSpaces_expanded_eq_append_iff (visible_of_isDigit hdigits) hne _ _ _).mpr
          ⟨gap, rest, List.append_assoc .., hgap, rfl⟩
      · rw [Text.any_head?_expanded isWord_space, hend]

theorem jumpItem_eq_some_iff (make : String → Instruction) (text : List Char) (item : Item)
    (rest : List Char) :
    jumpItem make text = some (item, rest) ↔
      ∃ name, skipSpaces text = name ++ rest ∧ IsIdentifier name ∧
        rest.head?.any isIdentifierPart = false ∧
        item = .instruction (make (String.ofList name)) := by
  constructor
  · intro h
    unfold jumpItem at h
    split at h
    · rename_i name after hname
      obtain ⟨hsplit, hidentifier, hend⟩ := (identifier?_eq_some_iff _ _ _).mp hname
      cases h
      exact ⟨name, hsplit, hidentifier, hend, rfl⟩
    · contradiction
  · rintro ⟨name, hsplit, hidentifier, hend, rfl⟩
    have hname := (identifier?_eq_some_iff _ _ _).mpr ⟨hsplit, hidentifier, hend⟩
    rw [jumpItem, hname]

theorem jumpItem_expanded_iff (make : String → Instruction) (column : Nat) (text : List Char)
    (item : Item) (after : List Char) :
    jumpItem make (expanded column text) = some (item, after) ↔
      ∃ lexeme rest piece, text = lexeme ++ rest ∧
        IsOperand column (.target make) lexeme rest piece ∧ item = piece.item ∧
        after = expanded (columnAfter column lexeme) rest := by
  rw [jumpItem_eq_some_iff]
  constructor
  · rintro ⟨name, hsplit, hname, hend, rfl⟩
    obtain ⟨gap, rest, rfl, hgap, rfl⟩ :=
      (skipSpaces_expanded_eq_append_iff hname.visible hname.ne_nil _ _ _).mp hsplit
    rw [Text.any_head?_expanded (by decide)] at hend
    exact ⟨gap ++ name, rest, _, (List.append_assoc ..).symm, .target hgap hname hend, rfl, rfl⟩
  · rintro ⟨_, rest, _, rfl, hoperand, rfl, rfl⟩
    cases hoperand with
    | @target _ gap name _ hgap hname hend =>
      refine ⟨name, ?_, hname, ?_, rfl⟩
      · exact (skipSpaces_expanded_eq_append_iff hname.visible hname.ne_nil _ _ _).mpr
          ⟨gap, rest, List.append_assoc .., hgap, rfl⟩
      · rw [Text.any_head?_expanded (by decide), hend]

end Accumulator.Assembly
