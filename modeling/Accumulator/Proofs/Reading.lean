import Accumulator.Proofs.Session
import Accumulator.Proofs.Step

/-!
Reading a text one line at a time. Wherever a reader stands, it has read the lines up to that of the
token it handed out last, and holds what is left of this line (`Standing`); so it hands out the
words of the whole text in order and never reads a line ahead. A machine cannot tell such a reader
from one that holds the words ready (`Twins`).
-/

set_option autoImplicit false
set_option relaxedAutoImplicit false

namespace Accumulator

namespace TokenReader

variable {text before line rest : List Char} {reader : TokenReader} {n : Nat}

/-! ### Lines -/

/-- Whole lines, each with its line feed. -/
def IsWholeLines (text : List Char) : Prop := text = [] ∨ text.getLast? = some '\n'

/-- A line of a text, with its line feed if it has one, between the lines before it and the rest. -/
structure IsLine (text before line rest : List Char) : Prop where
  text_eq : text = before ++ (line ++ rest)
  begins : IsWholeLines before
  ends : (∃ content, '\n' ∉ content ∧ line = content ++ ['\n']) ∨ ('\n' ∉ line ∧ rest = [])

/-- No token goes beyond a line feed. -/
theorem tokens_newline (first rest : List Char) :
    tokens (first ++ '\n' :: rest) = tokens first ++ tokens rest := by
  have hblank : Text.isBlank '\n' = true := by decide
  have hsplit : Text.words (first ++ '\n' :: rest) = Text.words first ++ Text.words rest :=
    Text.wordsFrom_append Text.isBlank hblank first rest []
  unfold tokens
  rw [hsplit, List.map_append]

theorem tokens_concat_newline (content : List Char) :
    tokens (content ++ ['\n']) = tokens content := by
  rw [tokens_newline, tokens_nil, List.append_nil]

theorem tokens_append (hbefore : IsWholeLines before) (rest : List Char) :
    tokens (before ++ rest) = tokens before ++ tokens rest := by
  rcases hbefore with rfl | hlast
  · rfl
  · obtain ⟨first, rfl⟩ := List.getLast?_eq_some_iff.mp hlast
    rw [tokens_concat_newline, List.append_assoc, List.singleton_append, tokens_newline]

theorem IsWholeLines.append (hbefore : IsWholeLines before) (hrest : IsWholeLines rest) :
    IsWholeLines (before ++ rest) := by
  rcases hrest with rfl | hlast
  · rw [List.append_nil]
    exact hbefore
  · exact Or.inr (by rw [List.getLast?_append, hlast, Option.some_or])

theorem IsLine.tokens_eq (h : IsLine text before line rest) :
    tokens text = tokens before ++ (tokens line ++ tokens rest) := by
  rw [h.text_eq, tokens_append h.begins]
  congr 1
  rcases h.ends with ⟨content, -, hline⟩ | ⟨-, hrest⟩
  · exact tokens_append (Or.inr (by rw [hline, List.getLast?_concat])) rest
  · rw [hrest, List.append_nil, tokens_nil, List.append_nil]

/-- What follows a line is text behind whole lines, unless it is nothing. -/
theorem IsLine.wholeLines (h : IsLine text before line rest) (hrest : rest ≠ []) :
    IsWholeLines (before ++ line) := by
  rcases h.ends with ⟨content, -, hline⟩ | ⟨-, hnone⟩
  · exact h.begins.append (Or.inr (by rw [hline, List.getLast?_concat]))
  · exact absurd hnone hrest

/-- A line behind whole lines is a line of the whole. -/
theorem IsLine.behind {done : List Char} (hdone : IsWholeLines done)
    (h : IsLine text before line rest) : IsLine (done ++ text) (done ++ before) line rest where
  text_eq := by rw [h.text_eq, List.append_assoc]
  begins := hdone.append h.begins
  ends := h.ends

/-- The first line of a text. -/
theorem exists_first_line (text : List Char) :
    ∃ line, IsLine text [] line (afterLine text) ∧
      tokens line = tokens (text.takeWhile (· != '\n')) := by
  have hcontent := newline_notMem_takeWhile text
  rcases first_line_cases text with ⟨hwhole, hnone⟩ | hsplit
  · rw [hwhole] at hcontent ⊢
    rw [hnone]
    exact ⟨text, ⟨(List.append_nil text).symm, Or.inl rfl, Or.inr ⟨hcontent, rfl⟩⟩, rfl⟩
  · refine ⟨text.takeWhile (· != '\n') ++ ['\n'],
      ⟨?_, Or.inl rfl, Or.inl ⟨_, hcontent, rfl⟩⟩, tokens_concat_newline _⟩
    rw [List.nil_append, List.append_assoc, List.singleton_append, hsplit]

/-- Words are looked for in one line after the other. The line they come from is the first that has
any, and nothing behind it is read. -/
theorem nextWords_spec (text : List Char) :
    (tokens text = [] ∧ nextWords text = ([], [])) ∨
      ∃ before line rest, IsLine text before line rest ∧ tokens before = [] ∧ tokens line ≠ [] ∧
        nextWords text = (tokens line, rest) := by
  induction text using nextWords.induct with
  | case1 => exact Or.inl ⟨rfl, by rw [nextWords, dif_pos rfl]⟩
  | case2 text hne hline ih =>
    obtain ⟨first, hfirst, htokens⟩ := exists_first_line text
    have hnone : tokens first = [] := by
      rw [htokens, tokens, hline]
      rfl
    have hskip : nextWords text = nextWords (afterLine text) := by
      rw [nextWords, dif_neg hne, hline]
    have hwhole := hfirst.tokens_eq
    rw [hnone] at hwhole
    rw [hskip]
    rcases ih with ⟨hempty, hwords⟩ | ⟨before, line, rest, hlater, hblank, hsome, hwords⟩
    · exact Or.inl ⟨hwhole.trans hempty, hwords⟩
    · have hmore : afterLine text ≠ [] := by
        intro hnil
        have hall := hlater.tokens_eq
        rw [hnil, hblank, tokens_nil, List.nil_append] at hall
        exact hsome (List.append_eq_nil_iff.mp hall.symm).1
      have hlines : IsWholeLines first := hfirst.wholeLines hmore
      refine Or.inr ⟨first ++ before, line, rest, ?_, ?_, hsome, hwords⟩
      · have htext : text = first ++ afterLine text := hfirst.text_eq
        rw [htext]
        exact hlater.behind hlines
      · rw [tokens_append hlines, hnone, hblank]
        rfl
  | case3 text hne hline =>
    obtain ⟨first, hfirst, htokens⟩ := exists_first_line text
    refine Or.inr ⟨[], first, afterLine text, hfirst, rfl, ?_, ?_⟩
    · rw [htokens, tokens]
      intro hnil
      exact hline (List.map_eq_nil_iff.mp hnil)
    · rw [nextWords, dif_neg hne, htokens]
      split
      · contradiction
      · rfl

/-! ### Where a reader stands -/

/-- Where a reader of a text stands when it was asked for a token so many times: at the start of the
text; behind one of the tokens of a line, with the others of this line pending and the rest of the
text unread; or at the end, once it was asked in vain. -/
inductive Standing (text : List Char) : Nat → TokenReader → Prop
  | untouched : Standing text 0 { unread := some text }
  | within {before line rest : List Char} {k : Nat} (hline : IsLine text before line rest)
      (hpositive : 0 < k) (hle : k ≤ (tokens line).length) :
      Standing text ((tokens before).length + k)
        { pending := (tokens line).drop k, unread := some rest }
  | exhausted {n : Nat} (hall : (tokens text).length < n) : Standing text n { unread := some [] }

/-- The tokens left are those of the text not yet handed out. -/
theorem Standing.remaining_eq (h : Standing text n reader) :
    reader.remaining = (tokens text).drop n := by
  cases h with
  | untouched => rfl
  | @within before line rest k hline hpositive hle =>
    rw [hline.tokens_eq, List.drop_length_add_append, List.drop_append_of_le_length hle]
    rfl
  | exhausted hall => rw [List.drop_eq_nil_of_le (Nat.le_of_lt hall)]; rfl

/-- With no token pending, the first of the next line that has any is handed out. -/
theorem standing_next_of_spent {done : List Char} (hdone : rest ≠ [] → IsWholeLines done) :
    Standing (done ++ rest) ((tokens done).length + 1) (next { unread := some rest }).2 := by
  have hsplit : tokens (done ++ rest) = tokens done ++ tokens rest := by
    by_cases hrest : rest = []
    · rw [hrest, List.append_nil, tokens_nil, List.append_nil]
    · exact tokens_append (hdone hrest) rest
  rcases nextWords_spec rest with ⟨hempty, hwords⟩ |
    ⟨before, line, later, hline, hblank, hsome, hwords⟩
  · simp only [next, hwords]
    refine .exhausted ?_
    rw [hsplit, hempty, List.append_nil]
    exact Nat.lt_succ_self _
  · have hrest : rest ≠ [] := by
      rintro rfl
      have hall := hline.tokens_eq
      rw [tokens_nil, hblank, List.nil_append] at hall
      exact hsome (List.append_eq_nil_iff.mp hall.symm).1
    obtain ⟨token, others, htokens⟩ := List.exists_cons_of_ne_nil hsome
    have hbefore : tokens (done ++ before) = tokens done := by
      rw [tokens_append (hdone hrest), hblank, List.append_nil]
    have hstanding := Standing.within (hline.behind (hdone hrest)) Nat.zero_lt_one
      (List.length_pos_iff.mpr hsome)
    rw [hbefore, htokens] at hstanding
    simp only [next, hwords, htokens]
    exact hstanding

/-- Whatever it was asked before, a reader that is asked for a token moves on by one. -/
theorem Standing.next (h : Standing text n reader) : Standing text (n + 1) reader.next.2 := by
  cases h with
  | untouched =>
    have hstart : IsWholeLines [] := Or.inl rfl
    exact standing_next_of_spent fun _ ↦ hstart
  | @within before line rest k hline hpositive hle =>
    rcases Nat.lt_or_eq_of_le hle with hlt | heq
    · have hpending : (tokens line).drop k = (tokens line)[k] :: (tokens line).drop (k + 1) :=
        List.drop_eq_getElem_cons hlt
      rw [hpending]
      exact .within hline (Nat.succ_pos k) hlt
    · have htext : text = before ++ line ++ rest := by rw [hline.text_eq, List.append_assoc]
      have hlength : (tokens before).length + k = (tokens (before ++ line)).length := by
        rw [heq, tokens_append hline.begins, List.length_append]
      rw [heq, List.drop_length, ← heq, hlength, htext]
      exact standing_next_of_spent hline.wholeLines
  | exhausted hall =>
    have hwords : nextWords [] = ([], []) := by rw [nextWords, dif_pos rfl]
    simp only [TokenReader.next, hwords]
    exact .exhausted (Nat.lt_succ_of_lt hall)

/-- While there are tokens, the last one handed out stands in a line whose others are pending. -/
theorem Standing.exists_line (h : Standing text n reader) (hpositive : 0 < n)
    (hle : n ≤ (tokens text).length) :
    ∃ before line rest, IsLine text before line rest ∧ (tokens before).length < n ∧
      n ≤ (tokens before).length + (tokens line).length ∧ reader.unread = some rest ∧
      reader.pending = (tokens line).drop (n - (tokens before).length) := by
  cases h with
  | untouched => exact absurd hpositive (Nat.lt_irrefl 0)
  | @within before line rest k hline hk hwithin =>
    refine ⟨before, line, rest, hline, by omega, by omega, rfl, ?_⟩
    rw [Nat.add_sub_cancel_left]
  | exhausted hall => exact absurd hall (Nat.not_lt_of_le hle)

theorem Standing.eq_empty (h : Standing text n reader) (hlt : (tokens text).length < n) :
    reader = { unread := some [] } := by
  cases h with
  | untouched => exact absurd hlt (Nat.not_lt_zero _)
  | @within before line rest k hline hk hwithin =>
    rw [hline.tokens_eq, List.length_append, List.length_append] at hlt
    omega
  | exhausted hall => rfl

/-! ### Calls to a reader -/

/-- What a reader is asked for. -/
inductive Call where
  | token
  | integer
  deriving DecidableEq, Repr

inductive Answer where
  | token (token : Option String)
  | integer (result : Except Failure Int)

/-- The answer to a call, given the next token, if there is one. -/
def Call.answer : Call → Option String → Answer
  | .token, found? => .token found?
  | .integer, none => .integer (.error (.ofFault (.inputParseError none)))
  | .integer, some found => .integer (TokenReader.integer found)

def ask (reader : TokenReader) : Call → Answer × TokenReader
  | .token => (.token reader.next.1, reader.next.2)
  | .integer => (.integer reader.nextInteger.1, reader.nextInteger.2)

/-- One call after the other. -/
def askAll (reader : TokenReader) : List Call → List Answer × TokenReader
  | [] => ([], reader)
  | call :: calls =>
      let (answer, after) := reader.ask call
      let (answers, last) := after.askAll calls
      (answer :: answers, last)

theorem Standing.interrupts_eq (h : Standing text n reader) : reader.interrupts = false := by
  cases h <;> rfl

theorem Standing.ask (h : Standing text n reader) (call : Call) :
    (reader.ask call).1 = call.answer (tokens text)[n]? ∧
      Standing text (n + 1) (reader.ask call).2 := by
  have hremaining := h.remaining_eq
  cases call with
  | token =>
    refine ⟨?_, h.next⟩
    have htoken := reader.next_eq.1
    rw [hremaining, List.head?_drop] at htoken
    exact congrArg Answer.token htoken
  | integer =>
    have hresult := nextInteger_fst h.interrupts_eq
    have hafter : (reader.ask .integer).2 = reader.next.2 := reader.nextInteger_snd
    have hanswer : (reader.ask .integer).1 = .integer reader.nextInteger.1 := rfl
    rw [hafter, hanswer, hresult, hremaining, ← List.head?_drop]
    refine ⟨?_, h.next⟩
    cases (tokens text).drop n <;> rfl

/-- However a reader of a text is called, it hands out the words of the text, in order. -/
theorem Standing.askAll (h : Standing text n reader) (calls : List Call) :
    (reader.askAll calls).1 = calls.mapIdx (fun i call ↦ call.answer (tokens text)[n + i]?) ∧
      Standing text (n + calls.length) (reader.askAll calls).2 := by
  induction calls generalizing n reader with
  | nil => exact ⟨rfl, h⟩
  | cons call calls ih =>
    obtain ⟨hanswer, hafter⟩ := h.ask call
    obtain ⟨hanswers, hlast⟩ := ih hafter
    rw [List.mapIdx_cons, List.length_cons, ← Nat.add_assoc, Nat.add_right_comm]
    refine ⟨?_, hlast⟩
    have hshift (i : Nat) : n + 1 + i = n + (i + 1) := by omega
    simp only [hshift] at hanswers
    rw [Nat.add_zero, ← hanswer, ← hanswers]
    rfl

/-- Two readers have been asked for a token both, or neither has. -/
def MoveTogether (own reader own' left : TokenReader) : Prop :=
  (own' = own ∧ left = reader) ∨ (own' = own.next.2 ∧ left = reader.next.2)

end TokenReader

namespace Machine

variable {machine after : Machine} {reader left : TokenReader} {instruction : Instruction}

/-! ### Machines with different readers -/

/-- The machine with another reader. -/
def withInput (machine : Machine) (input : TokenReader) : Machine := { machine with input }

theorem readAcc_withInput (machine : Machine) (prompt : String)
    (hsame : reader.nextInteger.1 = machine.input.nextInteger.1) :
    ∃ left, (machine.withInput reader).readAcc prompt =
        ((machine.readAcc prompt).1.withInput left, (machine.readAcc prompt).2) ∧
      machine.input.MoveTogether reader (machine.readAcc prompt).1.input left := by
  have hown := machine.input.nextInteger_snd
  have hother := reader.nextInteger_snd
  simp only [readAcc, withInput]
  rcases machine.output.write prompt with ⟨output, _ | _⟩
  · exact ⟨reader, rfl, Or.inl ⟨rfl, rfl⟩⟩
  · rcases hnext : machine.input.nextInteger with ⟨result, input⟩
    rcases hnext' : reader.nextInteger with ⟨result', left⟩
    rw [hnext] at hsame hown
    rw [hnext'] at hsame hother
    simp only at hsame hown hother
    subst hsame
    cases result' <;> exact ⟨left, rfl, Or.inr ⟨hown, hother⟩⟩

/-- An instruction does the same with any reader from which it takes the same token, if it takes
one. -/
theorem execute_withInput (machine : Machine)
    (hsame : ∀ prompt, instruction = .input prompt →
      reader.nextInteger.1 = machine.input.nextInteger.1) :
    ∃ left, (machine.withInput reader).execute instruction =
        ((machine.execute instruction).1.withInput left, (machine.execute instruction).2) ∧
      machine.input.MoveTogether reader (machine.execute instruction).1.input left := by
  refine execute_congr (R := fun first second ↦ ∃ left, second = (first.1.withInput left, first.2) ∧
      machine.input.MoveTogether reader first.1.input left)
    instruction (fun _ ↦ ⟨reader, rfl, Or.inl ⟨rfl, rfl⟩⟩) (fun _ ↦ rfl) rfl ?_ ?_ ?_ ?_
  · intro index combine _ _
    simp only [accumulate, withInput]
    split <;> exact ⟨reader, rfl, Or.inl ⟨rfl, rfl⟩⟩
  · intro index _
    simp only [storeAcc, withInput]
    split <;> exact ⟨reader, rfl, Or.inl ⟨rfl, rfl⟩⟩
  · intro prompt hinput
    exact machine.readAcc_withInput prompt (hsame prompt hinput)
  · intro prompt
    simp only [writeAcc, withInput]
    split
    · exact ⟨reader, rfl, Or.inl ⟨rfl, rfl⟩⟩
    · split <;> exact ⟨reader, rfl, Or.inl ⟨rfl, rfl⟩⟩

theorem attempt_withInput (machine : Machine)
    (hsame : ∀ prompt, machine.current? = some (.input prompt) →
      reader.nextInteger.1 = machine.input.nextInteger.1) :
    ∃ left, (machine.withInput reader).attempt =
        (machine.attempt.1.withInput left, machine.attempt.2) ∧
      machine.input.MoveTogether reader machine.attempt.1.input left := by
  refine attempt_congr (R := fun first second ↦ ∃ left, second = (first.1.withInput left, first.2) ∧
      machine.input.MoveTogether reader first.1.input left)
    rfl rfl (fun _ ↦ ⟨reader, rfl, Or.inl ⟨rfl, rfl⟩⟩) fun instruction hcurrent ↦ ?_
  refine machine.execute_withInput fun prompt hinput ↦ hsame prompt ?_
  rw [hcurrent, hinput]

theorem advance_withInput (machine : Machine) (reader : TokenReader) (displacement : Int) :
    (machine.withInput reader).advance displacement =
      (machine.advance displacement).withInput reader := by
  simp only [advance, apply_ite (withInput · reader)]
  rfl

theorem deliver_withInput (machine : Machine) (reader : TokenReader) :
    (machine.withInput reader).deliver =
      (machine.deliver.1.withInput reader, machine.deliver.2) := by
  have htrace : (machine.withInput reader).trace = machine.trace := rfl
  have hsnapshot : (machine.withInput reader).snapshot = machine.snapshot := rfl
  unfold deliver
  rw [htrace, hsnapshot]
  cases machine.trace with
  | none => rfl
  | some sink =>
    cases machine.snapshot with
    | error cause => rfl
    | ok text => cases sink <;> rfl

theorem commit_withInput (machine : Machine) (reader : TokenReader) (displacement : Int) :
    (machine.withInput reader).commit displacement =
      ((machine.commit displacement).1.withInput reader, (machine.commit displacement).2) := by
  unfold commit
  rw [advance_withInput, deliver_withInput]
  rcases (machine.advance displacement).deliver with ⟨traced, _ | _⟩ <;> rfl

/-- A step does the same with any reader from which it takes the same token, if it takes one. -/
theorem step_withInput (machine : Machine)
    (hsame : ∀ prompt, machine.halted = false → machine.current? = some (.input prompt) →
      reader.nextInteger.1 = machine.input.nextInteger.1) :
    ∃ left, (machine.withInput reader).step = (machine.step.1.withInput left, machine.step.2) ∧
      machine.input.MoveTogether reader machine.step.1.input left := by
  cases hhalted : machine.halted with
  | true =>
    have hhalted' : (machine.withInput reader).halted = true := hhalted
    rw [step_of_halted hhalted, step_of_halted hhalted']
    exact ⟨reader, rfl, Or.inl ⟨rfl, rfl⟩⟩
  | false =>
    have hhalted' : (machine.withInput reader).halted = false := hhalted
    obtain ⟨left, hattempt, hmove⟩ :=
      machine.attempt_withInput fun prompt hcurrent ↦ hsame prompt hhalted hcurrent
    rw [step_of_running hhalted, step_of_running hhalted', hattempt]
    rcases hresult : machine.attempt with ⟨after, failure | displacement⟩
    · rw [hresult] at hmove
      exact ⟨left, rfl, hmove⟩
    · rw [hresult] at hmove
      obtain ⟨journal, hcommit⟩ := after.exists_journal_commit displacement
      refine ⟨left, commit_withInput after left displacement, ?_⟩
      rw [hcommit]
      exact hmove

/-- The reader has the tokens left that the machine's own reader has. -/
structure Twins (machine : Machine) (reader : TokenReader) : Prop where
  remaining : reader.remaining = machine.input.remaining
  uninterrupted : reader.interrupts = false
  own_uninterrupted : machine.input.interrupts = false

theorem Twins.nextInteger_fst (h : Twins machine reader) :
    reader.nextInteger.1 = machine.input.nextInteger.1 := by
  rw [TokenReader.nextInteger_fst h.uninterrupted,
    TokenReader.nextInteger_fst h.own_uninterrupted, h.remaining]

theorem Twins.of_moveTogether (h : Twins machine reader)
    (hmove : machine.input.MoveTogether reader after.input left) : Twins after left := by
  rcases hmove with ⟨hown, rfl⟩ | ⟨hown, rfl⟩
  · exact ⟨by rw [hown, h.remaining], h.uninterrupted, by rw [hown, h.own_uninterrupted]⟩
  · refine ⟨?_, ?_, ?_⟩
    · rw [hown, reader.next_eq.2, machine.input.next_eq.2, h.remaining]
    · rw [TokenReader.interrupts_next, h.uninterrupted]
    · rw [hown, TokenReader.interrupts_next, h.own_uninterrupted]

/-- A step does the same with any reader that has the same tokens left. -/
theorem Twins.step (h : Twins machine reader) :
    ∃ left, (machine.withInput reader).step = (machine.step.1.withInput left, machine.step.2) ∧
      Twins machine.step.1 left := by
  obtain ⟨left, hstep, hmove⟩ := machine.step_withInput fun _ _ _ ↦ h.nextInteger_fst
  exact ⟨left, hstep, h.of_moveTogether hmove⟩

/-- The second machine is a twin of the first. -/
def IsTwin (first second : Machine) : Prop :=
  ∃ left, second = first.withInput left ∧ Twins first left

theorem IsTwin.step {first second : Machine} (h : IsTwin first second) :
    IsTwin first.step.1 second.step.1 ∧ second.step.2 = first.step.2 := by
  obtain ⟨left, rfl, htwins⟩ := h
  obtain ⟨later, hstep, hlater⟩ := htwins.step
  rw [hstep]
  exact ⟨⟨later, rfl, hlater⟩, rfl⟩

theorem IsTwin.steps_eq {first second : Machine} (h : IsTwin first second) :
    second.steps = first.steps := by
  obtain ⟨left, rfl, -⟩ := h
  rfl

theorem Twins.afterSteps (h : Twins machine reader) (n : Nat) :
    ∃ left, (machine.withInput reader).afterSteps n = (machine.afterSteps n).withInput left ∧
      Twins (machine.afterSteps n) left := by
  have htwin : IsTwin machine (machine.withInput reader) := ⟨reader, rfl, h⟩
  exact afterSteps_lockstep (R := IsTwin) (fun _ _ htwin ↦ htwin.step.1) htwin n

theorem Twins.runFrom (h : Twins machine reader) (budget : Budget) (begun fuel : Nat) :
    ∃ left, runFrom budget begun fuel (machine.withInput reader) =
        ((runFrom budget begun fuel machine).1.withInput left,
          (runFrom budget begun fuel machine).2) ∧
      Twins (runFrom budget begun fuel machine).1 left := by
  have htwin : IsTwin machine (machine.withInput reader) := ⟨reader, rfl, h⟩
  obtain ⟨⟨left, hlast, htwins⟩, hresult⟩ := runFrom_lockstep (fun _ _ ↦ IsTwin.step)
    (fun _ _ ↦ IsTwin.steps_eq) budget begun fuel htwin
  exact ⟨left, Prod.ext hlast hresult, htwins⟩

/-- A reader of a text hands out the words of the text, one to each call that asks for a token or an
integer, and then none for ever. While there are words, it has read no further than the line of the
last one and holds the others of this line. So a machine with such a reader makes the same steps and
the same runs as one to which the words are given. -/
theorem lazy_reader_splits_text (text : String) :
    (∀ calls : List TokenReader.Call,
      let words := TokenReader.tokens text.toList
      let asked := (TokenReader.ofText text).askAll calls
      asked.1 = calls.mapIdx (fun i call ↦ call.answer words[i]?) ∧
        (calls = [] → asked.2 = .ofText text) ∧
        (0 < calls.length → calls.length ≤ words.length → ∃ before line rest,
          TokenReader.IsLine text.toList before line rest ∧
            (TokenReader.tokens before).length < calls.length ∧
            calls.length ≤ (TokenReader.tokens before).length + (TokenReader.tokens line).length ∧
            asked.2.unread = some rest ∧
            asked.2.pending = (TokenReader.tokens line).drop
              (calls.length - (TokenReader.tokens before).length)) ∧
        (words.length < calls.length → asked.2 = .ofText "")) ∧
    ∀ program registers output trace,
      let reading := start program registers (.ofText text) output trace
      let given := start program registers (.ofTokens (TokenReader.tokens text.toList)) output trace
      (∀ n, (∃ left, reading.afterSteps n = (given.afterSteps n).withInput left ∧
          left.remaining = (given.afterSteps n).input.remaining) ∧
        (reading.afterSteps n).step.2 = (given.afterSteps n).step.2) ∧
      ∀ fuel budget, ∃ left, reading.run fuel budget =
          ((given.run fuel budget).1.withInput left, (given.run fuel budget).2) ∧
        left.remaining = (given.run fuel budget).1.input.remaining := by
  constructor
  · intro calls words asked
    have hstart : TokenReader.Standing text.toList 0 (.ofText text) := .untouched
    obtain ⟨hanswers, hstanding⟩ := hstart.askAll calls
    simp only [Nat.zero_add] at hanswers hstanding
    refine ⟨hanswers, ?_, ?_, ?_⟩
    · rintro rfl
      rfl
    · exact hstanding.exists_line
    · exact hstanding.eq_empty
  · intro program registers output trace reading given
    have hreading : reading = given.withInput (.ofText text) := rfl
    have hremaining : (TokenReader.ofText text).remaining = given.input.remaining :=
      (List.append_nil _).symm
    have htwins : Twins given (.ofText text) := ⟨hremaining, rfl, rfl⟩
    rw [hreading]
    constructor
    · intro n
      obtain ⟨left, hsame, hleft⟩ := htwins.afterSteps n
      obtain ⟨later, hstep, -⟩ := hleft.step
      refine ⟨⟨left, hsame, hleft.remaining⟩, ?_⟩
      rw [hsame, hstep]
    · intro fuel budget
      obtain ⟨left, hrun, hleft⟩ := htwins.runFrom budget given.steps fuel
      exact ⟨left, hrun, hleft.remaining⟩

/-- After the number of the first line the word behind it is pending, and the lines behind it are
not read. A blank line is passed over, and a call too many finds nothing. -/
theorem lazy_reader_of_two_lines :
    let text := "7 x\n \n8"
    let asked := (TokenReader.ofText text).askAll [.integer]
    let exhausted := (TokenReader.ofText text).askAll [.token, .integer, .integer, .token]
    asked.1 = [.integer (.ok 7)] ∧
      (∃ before line rest, TokenReader.IsLine text.toList before line rest ∧
        (TokenReader.tokens before).length < 1 ∧ asked.2.unread = some rest ∧
        asked.2.pending = (TokenReader.tokens line).drop
          (1 - (TokenReader.tokens before).length)) ∧
      exhausted.1 = [.token (some "7"), .integer (.error (.fault (.inputParseError (some "x")))),
        .integer (.ok 8), .token none] ∧
      exhausted.2 = .ofText "" := by
  intro text asked exhausted
  have hwords : TokenReader.tokens text.toList = ["7", "x", "8"] := by decide +kernel
  obtain ⟨hcalls, -⟩ := lazy_reader_splits_text "7 x\n \n8"
  obtain ⟨hfirst, -, hwithin, -⟩ := hcalls [.integer]
  obtain ⟨hall, -, -, hend⟩ := hcalls [.token, .integer, .integer, .token]
  rw [hwords] at hfirst hwithin hall hend
  obtain ⟨before, line, rest, hline, hlt, -, hunread, hpending⟩ :=
    hwithin Nat.zero_lt_one (by decide)
  exact ⟨hfirst, ⟨before, line, rest, hline, hlt, hunread, hpending⟩, hall, hend (by decide)⟩

end Machine

end Accumulator
