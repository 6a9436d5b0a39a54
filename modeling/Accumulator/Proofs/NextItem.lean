import Accumulator.Proofs.Quotation

/-!
The next item against the grammar. What the recognisers take at a place of a text is what the
grammar takes there (`nextItem_of_takes`), and they find something unknown exactly where the grammar
takes nothing (`nextItem_of_not_takes`). The recognisers do not look back: they are told whether the
place is behind a word, and what they are told suffices for the next place (`behind_of_takes`).
-/

set_option autoImplicit false
set_option relaxedAutoImplicit false

namespace Accumulator.Assembly

open Text (expanded columnAfter)

/-! ### Commands at a place -/

theorem operandItem_expanded_iff (m : Mnemonic) (column : Nat) (text : List Char) (item : Item)
    (after : List Char) :
    operandItem m (expanded column text) = some (item, after) ↔
      ∃ lexeme rest piece, text = lexeme ++ rest ∧
        IsOperand column m.form lexeme rest piece ∧ item = piece.item ∧
        after = expanded (columnAfter column lexeme) rest := by
  cases m
  case add | sub | sta | lda => exact registerItem_expanded_iff _ _ _ _ _
  case jmp | jz | jge => exact jumpItem_expanded_iff _ _ _ _ _
  case inp | out =>
    rw [operandItem, Option.some_inj]
    exact consoleItem_expanded_iff _ _ _ _ _ _
  case hlt =>
    constructor
    · intro h
      cases h
      exact ⟨[], text, _, rfl, .plain, rfl, rfl⟩
    · rintro ⟨_, rest, _, rfl, hoperand, rfl, rfl⟩
      cases hoperand
      rfl

/-- A letter with which a mnemonic may begin. -/
def startsMnemonic (c : Char) : Bool := (upperCase c).isAlpha

/-- The place before a text is behind a word, or not. Where no mnemonic could begin anyway it does
not matter. -/
def Behind (before : List Char) (behindWord : Bool) (text : List Char) : Prop :=
  behindWord = before.getLast?.any continuesMnemonic ∨ text.head?.any startsMnemonic = false

theorem IsSpelled.exists_cons {m : Mnemonic} {word : List Char} (h : IsSpelled m word) :
    ∃ c letters, word = c :: letters ∧ startsMnemonic c = true := by
  cases word with
  | nil => exact absurd h.symm m.spelling_ne_nil
  | cons c letters => exact ⟨c, letters, rfl, h.isAlpha c List.mem_cons_self⟩

variable {before text lexeme rest : List Char} {behindWord : Bool} {piece : Piece}

theorem mnemonic?_place_iff (hplace : Behind before behindWord text) (column : Nat) (m : Mnemonic)
    (after : List Char) :
    mnemonic? behindWord (expanded column text) = some (m, after) ↔
      before.getLast?.any continuesMnemonic = false ∧
        ∃ word rest, text = word ++ rest ∧ IsSpelled m word ∧
          rest.head?.any continuesMnemonic = false ∧
          after = expanded (columnAfter column word) rest := by
  rw [mnemonic?_expanded_iff]
  refine and_congr_left ?_
  rintro ⟨word, rest, rfl, hword, -⟩
  rcases hplace with hplace | hplace
  · rw [hplace]
  · obtain ⟨c, letters, rfl, hc⟩ := hword.exists_cons
    rw [List.cons_append, List.head?_cons, Option.any_some, hc] at hplace
    contradiction

theorem command?_place_iff (hplace : Behind before behindWord text) (item : Item)
    (after : List Char) :
    command? behindWord (expanded (columnAfter 0 before) text) = some (item, after) ↔
      ∃ lexeme rest piece, text = lexeme ++ rest ∧ IsCommand before lexeme rest piece ∧
        item = piece.item ∧ after = expanded (columnAfter 0 (before ++ lexeme)) rest := by
  constructor
  · intro h
    unfold command? at h
    split at h
    · rename_i m after' hmnemonic
      obtain ⟨hbehind, word, text, rfl, hword, hend, rfl⟩ :=
        (mnemonic?_place_iff hplace _ _ _).mp hmnemonic
      rw [← Text.columnAfter_append] at h
      obtain ⟨operand, rest, piece, rfl, hoperand, rfl, rfl⟩ :=
        (operandItem_expanded_iff _ _ _ _ _).mp h
      refine ⟨word ++ operand, rest, piece, (List.append_assoc ..).symm,
        .intro hword hbehind hend hoperand, rfl, ?_⟩
      rw [← List.append_assoc, Text.columnAfter_append _ (before ++ word)]
    · contradiction
  · rintro ⟨_, rest, piece, rfl, ⟨hword, hbehind, hend, hoperand⟩, rfl, rfl⟩
    rename_i m word operand
    have hmnemonic := (mnemonic?_place_iff hplace (columnAfter 0 before) m _).mpr
      ⟨hbehind, word, operand ++ rest, List.append_assoc .., hword, hend, rfl⟩
    have hitem := (operandItem_expanded_iff m _ (operand ++ rest) _ _).mpr
      ⟨operand, rest, piece, rfl, hoperand, rfl, rfl⟩
    rw [command?, hmnemonic]
    dsimp only
    rw [← Text.columnAfter_append, hitem, ← List.append_assoc,
      Text.columnAfter_append _ (before ++ word)]

/-! ### What is taken next -/

theorem startsComment_iff (column : Nat) (text : List Char) :
    StartsComment text ↔ (comment? (expanded column text)).isSome = true := by
  simp only [Option.isSome_iff_exists, comment?_expanded_iff]
  constructor
  · rintro ⟨lexeme, rest, rfl, h⟩
    exact ⟨_, lexeme, rest, rfl, h, rfl⟩
  · rintro ⟨_, lexeme, rest, rfl, h, -⟩
    exact ⟨lexeme, rest, rfl, h⟩

theorem startsLabel_iff (column : Nat) (text : List Char) :
    StartsLabel text ↔ (label? (expanded column text)).isSome = true := by
  simp only [Option.isSome_iff_exists, Prod.exists, label?_expanded_iff]
  constructor
  · rintro ⟨name, lexeme, rest, rfl, h⟩
    exact ⟨name, _, lexeme, rest, rfl, h, rfl⟩
  · rintro ⟨name, _, lexeme, rest, rfl, h, -⟩
    exact ⟨name, lexeme, rest, rfl, h⟩

theorem comment?_eq_none (h : ¬ StartsComment text) (column : Nat) :
    comment? (expanded column text) = none := by
  rw [startsComment_iff column] at h
  exact Option.not_isSome_iff_eq_none.mp h

theorem label?_eq_none (h : ¬ StartsLabel text) (column : Nat) :
    label? (expanded column text) = none := by
  rw [startsLabel_iff column] at h
  exact Option.not_isSome_iff_eq_none.mp h

theorem nextItem_of_takes (hplace : Behind before behindWord (lexeme ++ rest))
    (h : Takes before lexeme rest piece) :
    nextItem behindWord (expanded (columnAfter 0 before) (lexeme ++ rest)) =
      (piece.item, expanded (columnAfter 0 (before ++ lexeme)) rest) := by
  rw [nextItem, Text.columnAfter_append]
  cases h with
  | comment h =>
    rw [(comment?_expanded_iff _ _ _).mpr ⟨lexeme, rest, rfl, h, rfl⟩]
    rfl
  | label hcomment h =>
    rw [comment?_eq_none hcomment, (label?_expanded_iff _ _ _ _).mpr ⟨lexeme, rest, rfl, h, rfl⟩]
    rfl
  | command hcomment hlabel h =>
    rw [comment?_eq_none hcomment, label?_eq_none hlabel,
      (command?_place_iff hplace _ _).mpr ⟨lexeme, rest, piece, rfl, h, rfl, rfl⟩,
      Text.columnAfter_append]

theorem nextItem_of_not_takes (hplace : Behind before behindWord text)
    (hnone : ∀ lexeme rest piece, text = lexeme ++ rest → ¬ Takes before lexeme rest piece) :
    nextItem behindWord (expanded (columnAfter 0 before) text) =
      (.unknown (expanded (columnAfter 0 before) text),
        restOfLine (expanded (columnAfter 0 before) text)) := by
  have hcomment : ¬ StartsComment text := by
    rintro ⟨lexeme, rest, hsplit, h⟩
    exact hnone lexeme rest _ hsplit (.comment h)
  have hlabel : ¬ StartsLabel text := by
    rintro ⟨name, lexeme, rest, hsplit, h⟩
    exact hnone lexeme rest _ hsplit (.label (hsplit ▸ hcomment) h)
  have hcommand : command? behindWord (expanded (columnAfter 0 before) text) = none := by
    rw [Option.eq_none_iff_forall_ne_some]
    rintro ⟨item, after⟩ htaken
    obtain ⟨lexeme, rest, piece, hsplit, h, -⟩ := (command?_place_iff hplace _ _).mp htaken
    exact hnone lexeme rest piece hsplit (.command (hsplit ▸ hcomment) (hsplit ▸ hlabel) h)
  rw [nextItem, comment?_eq_none hcomment, label?_eq_none hlabel, hcommand]

/-! ### Places behind what is taken -/

theorem continuesMnemonic_of_startsMnemonic {c : Char} (h : startsMnemonic c = true) :
    continuesMnemonic c = true := by
  rw [startsMnemonic] at h
  simp [continuesMnemonic, Char.isAlphanum, h]

theorem isWord_of_isAlpha {c : Char} (h : c.isAlpha = true) : Text.isWord c = true := by
  have hletter : Text.alphanumeric.contains c = true := by
    rw [Text.Ranges.contains_iff]
    unfold Char.isAlpha Char.isUpper Char.isLower at h
    simp only [Bool.or_eq_true, Bool.and_eq_true, decide_eq_true_eq, ge_iff_le,
      UInt32.le_iff_toNat_le] at h
    rcases h with hupper | hlower
    · exact ⟨(0x41, 0x5a), .tail _ (.head _), hupper⟩
    · exact ⟨(0x61, 0x7a), .tail _ (.tail _ (.head _)), hlower⟩
  simp [Text.isWord, hletter]

theorem isAlpha_of_isAlpha_toUpper {c : Char} (h : c.toUpper.isAlpha = true) :
    c.isAlpha = true := by
  unfold Char.toUpper at h
  split at h
  · rename_i hlower
    unfold Char.isAlpha Char.isLower
    rw [Bool.or_eq_true, Bool.and_eq_true, decide_eq_true_iff, decide_eq_true_iff]
    exact Or.inr hlower
  · exact h

theorem isWord_of_startsMnemonic {c : Char} (h : startsMnemonic c = true) :
    Text.isWord c = true := by
  unfold startsMnemonic upperCase at h
  split at h
  · rename_i hdotless
    rw [beq_iff_eq.mp hdotless]
    decide +kernel
  · split at h
    · rename_i hlong
      rw [beq_iff_eq.mp hlong]
      decide +kernel
    · exact isWord_of_isAlpha (isAlpha_of_isAlpha_toUpper h)

theorem toNat_lt_of_isIdentifierPart {c : Char} (h : isIdentifierPart c = true) :
    c.toNat < 128 := by
  unfold isIdentifierPart Char.isAlphanum Char.isAlpha Char.isUpper Char.isLower Char.isDigit at h
  simp only [Bool.or_eq_true, Bool.and_eq_true, decide_eq_true_eq, beq_iff_eq, ge_iff_le,
    UInt32.le_iff_toNat_le] at h
  have hval : c.toNat = c.val.toNat := rfl
  have hupper : 'Z'.val.toNat = 90 := rfl
  have hlower : 'z'.val.toNat = 122 := rfl
  have hdigit : '9'.val.toNat = 57 := rfl
  rcases h with h | rfl
  · omega
  · decide

theorem continuesMnemonic_of_isIdentifierPart {c : Char} (h : isIdentifierPart c = true) :
    continuesMnemonic c = true := by
  have hascii : ∀ n < 128, isIdentifierPart (Char.ofNat n) = true →
      continuesMnemonic (Char.ofNat n) = true := by decide
  have hc := hascii c.toNat (toNat_lt_of_isIdentifierPart h)
  rw [Char.ofNat_toNat] at hc
  exact hc h

theorem IsIdentifier.continuesMnemonic {name : List Char} (h : IsIdentifier name) :
    ∀ c ∈ name, continuesMnemonic c = true :=
  fun c hc ↦ continuesMnemonic_of_isIdentifierPart (h.part c hc)

theorem any_getLast?_append {p : Char → Bool} (first : List Char) {last : List Char}
    (hne : last ≠ []) : (first ++ last).getLast?.any p = last.getLast?.any p := by
  rw [List.getLast?_append, List.getLast?_eq_some_getLast hne, Option.some_or]

/-- Behind a row of characters of a sort stands one of that sort. -/
theorem any_getLast?_of_forall {p : Char → Bool} (first : List Char) {last : List Char}
    (hne : last ≠ []) (hlast : ∀ c ∈ last, p c = true) :
    (first ++ last).getLast?.any p = true := by
  rw [any_getLast?_append first hne, List.getLast?_eq_some_getLast hne]
  exact hlast _ (List.getLast_mem hne)

theorem behind_of_lineEnd (hend : rest.head?.all (· == '\n') = true) (before : List Char)
    (behindWord : Bool) : Behind before behindWord rest := by
  right
  cases rest with
  | nil => rfl
  | cons c rest =>
    have hc : c = '\n' := beq_iff_eq.mp hend
    rw [hc, List.head?_cons]
    decide

theorem behind_of_isSpace {c : Char} (hc : isSpace c = true) (before text : List Char) :
    Behind (before ++ [c]) false text := by
  left
  have hcontinues : continuesMnemonic c = false := eq_false_of_isSpace (by decide) hc
  rw [any_getLast?_append before (List.cons_ne_nil c [])]
  exact hcontinues.symm

/-- Behind an operand: jumps end in a word, a number is behind a word but stands before none, and
without an operand no word continues the mnemonic. -/
theorem behind_of_isOperand {m : Mnemonic} {operand : List Char} {column : Nat}
    (hend : (operand ++ rest).head?.any continuesMnemonic = false)
    (h : IsOperand column m.form operand rest piece) :
    Behind (before ++ operand) piece.item.endsInWord rest := by
  cases m
  case add | sub | sta | lda =>
    cases h with
    | register _ _ _ hword =>
      exact .inr (any_eq_false_of_imp (fun _ ↦ isWord_of_startsMnemonic) hword)
  case jmp | jz | jge =>
    cases h with
    | target _ hname _ =>
      left
      rw [← List.append_assoc, any_getLast?_of_forall _ hname.ne_nil hname.continuesMnemonic]
      rfl
  case inp | out =>
    cases h with
    | prompt _ hquoted _ =>
      left
      rw [List.getLast?_append, List.getLast?_append, hquoted.getLast?]
      rfl
    | noPrompt =>
      exact .inr (any_eq_false_of_imp (fun _ ↦ continuesMnemonic_of_startsMnemonic) hend)
  case hlt =>
    cases h with
    | plain => exact .inr (any_eq_false_of_imp (fun _ ↦ continuesMnemonic_of_startsMnemonic) hend)

theorem behind_of_isCommand (h : IsCommand before lexeme rest piece) :
    Behind (before ++ lexeme) piece.item.endsInWord rest := by
  obtain ⟨-, -, hend, hoperand⟩ := h
  rw [← List.append_assoc]
  exact behind_of_isOperand hend hoperand

/-- The recognisers know enough of what they have read to go on. -/
theorem behind_of_takes (h : Takes before lexeme rest piece) :
    Behind (before ++ lexeme) piece.item.endsInWord rest := by
  cases h with
  | comment h =>
    obtain ⟨remark, rfl, -, hend⟩ := h
    exact behind_of_lineEnd hend _ _
  | label _ h =>
    obtain ⟨gap, rfl, -, -⟩ := h
    left
    rw [← List.append_assoc, ← List.append_assoc, any_getLast?_append _ (List.cons_ne_nil ':' [])]
    rfl
  | command _ _ h => exact behind_of_isCommand h

end Accumulator.Assembly
