import Accumulator.Console.TokenReader

/-!
The tokens that a reader has left, as one list: those split off already, then the words of the text
not yet read. `TokenReader.next_eq` says that the next token is the first of the list, and that the
list is afterwards without it, although the text is split one line at a time.
-/

set_option autoImplicit false
set_option relaxedAutoImplicit false

namespace Accumulator

namespace Text

/-- No word goes beyond a separator, so a text can be split at one. -/
theorem wordsFrom_append (isSeparator : Char → Bool) {c : Char} (hc : isSeparator c = true)
    (first rest : List Char) (word : List Char) :
    wordsFrom isSeparator word (first ++ c :: rest) =
      wordsFrom isSeparator word first ++ wordsFrom isSeparator [] rest := by
  induction first generalizing word with
  | nil => cases word <;> simp [wordsFrom, hc]
  | cons d first ih =>
    rw [List.cons_append, wordsFrom.eq_3, wordsFrom.eq_3]
    by_cases hd : isSeparator d = true
    · rw [if_pos hd, if_pos hd]
      by_cases hword : word.isEmpty = true
      · rw [if_pos hword, if_pos hword, ih]
      · rw [if_neg hword, if_neg hword, ih, List.cons_append]
    · rw [if_neg hd, if_neg hd, ih]

end Text

namespace TokenReader

theorem newline_notMem_takeWhile (text : List Char) : '\n' ∉ text.takeWhile (· != '\n') := by
  intro hmem
  have hne := List.all_eq_true.mp List.all_takeWhile _ hmem
  simp at hne

/-- The first line of a text is all of it, or ends with a line feed behind which the others stand. -/
theorem first_line_cases (text : List Char) :
    (text.takeWhile (· != '\n') = text ∧ afterLine text = []) ∨
      text.takeWhile (· != '\n') ++ '\n' :: afterLine text = text := by
  have hsplit := List.takeWhile_append_dropWhile (p := (· != '\n')) (l := text)
  unfold afterLine
  cases hrest : text.dropWhile (· != '\n') with
  | nil =>
    rw [hrest, List.append_nil] at hsplit
    exact Or.inl ⟨hsplit, rfl⟩
  | cons c rest =>
    have hhead := List.head_dropWhile_not (· != '\n') (by rw [hrest]; simp)
    have hc : c = '\n' := by simpa [hrest] using hhead
    rw [hrest, hc] at hsplit
    exact Or.inr hsplit

/-- The words of a text are those of its first line, then those of the other lines. -/
theorem words_eq_append_afterLine (text : List Char) :
    Text.words text =
      Text.words (text.takeWhile (· != '\n')) ++ Text.words (afterLine text) := by
  rcases first_line_cases text with ⟨hwhole, hnone⟩ | hsplit
  · rw [hwhole, hnone]
    simp [Text.words, Text.wordsBy, Text.wordsFrom]
  · have hblank : Text.isBlank '\n' = true := by decide
    have happend := Text.wordsFrom_append Text.isBlank hblank
      (text.takeWhile (· != '\n')) (afterLine text) []
    rw [hsplit] at happend
    exact happend

/-- The tokens of a text that is not yet split. -/
def tokens (text : List Char) : List String := (Text.words text).map String.ofList

theorem tokens_eq_append_afterLine (text : List Char) :
    tokens text = tokens (text.takeWhile (· != '\n')) ++ tokens (afterLine text) := by
  unfold tokens
  rw [words_eq_append_afterLine, List.map_append]

@[simp] theorem tokens_nil : tokens [] = [] := rfl

theorem nextWords_append (text : List Char) :
    (nextWords text).1 ++ tokens (nextWords text).2 = tokens text := by
  induction text using nextWords.induct with
  | case1 => simp [nextWords]
  | case2 text hne hline ih =>
    have hnone : tokens (text.takeWhile (· != '\n')) = [] := by simp [tokens, hline]
    rw [tokens_eq_append_afterLine text, hnone, List.nil_append, nextWords, dif_neg hne, hline]
    exact ih
  | case3 text hne hline =>
    rw [tokens_eq_append_afterLine text, nextWords, dif_neg hne]
    split
    · contradiction
    · rfl

/-- Only a text without words yields none. -/
theorem tokens_eq_nil_of_nextWords {text : List Char} (h : (nextWords text).1 = []) :
    (nextWords text).2 = [] := by
  induction text using nextWords.induct with
  | case1 => simp [nextWords]
  | case2 text hne hline ih =>
    rw [nextWords, dif_neg hne, hline] at h ⊢
    exact ih h
  | case3 text hne hline =>
    rw [nextWords, dif_neg hne] at h
    split at h
    · contradiction
    · exact absurd (List.map_eq_nil_iff.mp h) hline

/-- The tokens that a reader has not handed out. -/
def remaining (reader : TokenReader) : List String :=
  reader.pending ++ (reader.unread.map tokens).getD []

/-- The next token is the first of those left, and taking it leaves the others. -/
theorem next_eq (reader : TokenReader) :
    reader.next.1 = reader.remaining.head? ∧ reader.next.2.remaining = reader.remaining.tail := by
  unfold next
  split
  · rename_i token rest _ hpending
    simp [remaining, hpending]
  · rename_i hpending hunread
    simp [remaining, hpending, hunread]
  · rename_i text hpending hunread
    have htokens := nextWords_append text
    have hnone := @tokens_eq_nil_of_nextWords text
    rcases hwords : nextWords text with ⟨found, rest⟩
    rw [hwords] at htokens hnone
    cases found with
    | nil =>
      have hrest : rest = [] := hnone rfl
      subst hrest
      simp [remaining, hpending, hunread, ← htokens]
    | cons token others => simp [remaining, hpending, hunread, ← htokens]

@[simp] theorem interrupts_next (reader : TokenReader) :
    reader.next.2.interrupts = reader.interrupts := by
  unfold next
  split
  · rfl
  · rfl
  · split <;> rfl

theorem nextInteger_fst {reader : TokenReader} (huninterrupted : reader.interrupts = false) :
    reader.nextInteger.1 = match reader.remaining with
      | [] => .error (.ofFault (.inputParseError none))
      | token :: _ => integer token := by
  have htoken := reader.next_eq.1
  have hinterrupts := reader.interrupts_next.trans huninterrupted
  unfold nextInteger
  rcases hnext : reader.next with ⟨token?, after⟩
  rw [hnext] at htoken hinterrupts
  cases hremaining : reader.remaining with
  | nil =>
    rw [hremaining] at htoken
    simp only [List.head?_nil] at htoken hinterrupts
    simp [htoken, hinterrupts]
  | cons token rest =>
    rw [hremaining] at htoken
    simp only [List.head?_cons] at htoken
    simp [htoken]

/-- Whatever an integer is made of, one token is taken. -/
theorem nextInteger_snd (reader : TokenReader) : reader.nextInteger.2 = reader.next.2 := by
  unfold nextInteger
  split
  · simp_all
  · split <;> simp_all

end TokenReader

end Accumulator
