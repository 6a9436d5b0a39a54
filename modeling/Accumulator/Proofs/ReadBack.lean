import Accumulator.Proofs.Numerals
import Accumulator.Proofs.Reading
import Mathlib.Data.Nat.Digits.Defs

/-!
What output instructions write, input instructions read. A number on a line of its own, behind
blanks at most, is one token (`TokenReader.tokens_numberLines`), and a token is taken for an integer
exactly if it is an optional sign and decimal digits (`TokenReader.integer_eq_ok_iff`). So the
numbers that a machine has written come back from a reader of its output in their order
(`Machine.written_numbers_are_read_back`).
-/

set_option autoImplicit false
set_option relaxedAutoImplicit false

namespace Accumulator

/-! ### Words -/

namespace Text

theorem isBlank_of_isDigit {c : Char} (h : Numeral.isDigit c = true) : isBlank c = false := by
  simp only [Numeral.isDigit, Bool.and_eq_true, decide_eq_true_eq, Char.le_def,
    UInt32.le_iff_toNat_le] at h
  obtain ⟨hlow, hhigh⟩ := h
  have hlow : 48 ≤ c.toNat := hlow
  have hhigh : c.toNat ≤ 57 := hhigh
  rw [Bool.eq_false_iff]
  intro hblank
  obtain ⟨range, hrange, hle, hge⟩ := (Ranges.contains_iff blanks c).mp hblank
  have houtside : ∀ range ∈ blanks, range.2 < 48 ∨ 57 < range.1 := by decide
  have := houtside range hrange
  omega

/-- No word starts in front of another character than a separator. -/
theorem words_gap_append {gap : List Char} (hgap : ∀ c ∈ gap, isBlank c = true)
    (rest : List Char) : words (gap ++ rest) = words rest := by
  induction gap with
  | nil => rfl
  | cons c gap ih =>
    obtain ⟨hc, hothers⟩ := List.forall_mem_cons.mp hgap
    unfold words wordsBy at ih ⊢
    rw [List.cons_append, wordsFrom.eq_3, if_pos hc]
    exact ih hothers

theorem wordsFrom_of_word {word : List Char} (hword : ∀ c ∈ word, isBlank c = false)
    (done : List Char) (hsome : done ++ word ≠ []) :
    wordsFrom isBlank done word = [done.reverse ++ word] := by
  induction word generalizing done with
  | nil =>
    rw [List.append_nil] at hsome ⊢
    exact wordsFrom.eq_2 isBlank done hsome
  | cons c word ih =>
    obtain ⟨hc, hothers⟩ := List.forall_mem_cons.mp hword
    rw [wordsFrom.eq_3, if_neg (Bool.not_eq_true _ ▸ hc), ih hothers (c :: done)
      (List.cons_ne_nil _ _), List.reverse_cons, List.append_assoc, List.singleton_append]

theorem words_of_word {word : List Char} (hword : ∀ c ∈ word, isBlank c = false)
    (hsome : word ≠ []) : words word = [word] :=
  wordsFrom_of_word hword [] hsome

end Text

/-! ### Numerals -/

namespace Numeral

/-- The text is an optional sign and one decimal digit or more. -/
structure IsNumeral (text sign digits : List Char) : Prop where
  text_eq : text = sign ++ digits
  sign : sign = [] ∨ sign = ['+'] ∨ sign = ['-']
  nonempty : digits ≠ []
  digits : ∀ c ∈ digits, '0' ≤ c ∧ c ≤ '9'

/-- The integer that a sign and decimal digits denote. -/
def denoted (sign digits : List Char) : Int :=
  let magnitude : Nat := Nat.ofDigits 10 (digits.reverse.map fun c ↦ c.toNat - '0'.toNat)
  if sign = ['-'] then -magnitude else magnitude

variable {text sign digits : List Char} {negative : Bool}

theorem ofDigits_eq_ofDigits (digits : List Char) :
    ofDigits digits = Nat.ofDigits 10 (digits.reverse.map fun c ↦ c.toNat - '0'.toNat) := by
  rw [Nat.ofDigits_eq_foldr, List.foldr_map, List.foldr_reverse]
  unfold ofDigits
  congr 1
  funext n c
  rw [Nat.add_comm]
  rfl

theorem isDigit_iff (c : Char) : isDigit c = true ↔ '0' ≤ c ∧ c ≤ '9' := by
  unfold isDigit
  rw [Bool.and_eq_true, decide_eq_true_iff, decide_eq_true_iff]

theorem split?_of_isNumeral (h : IsNumeral text sign digits) :
    split? text = some (decide (sign = ['-']), digits) := by
  have hsome : digits.isEmpty = false := List.isEmpty_eq_false_iff.mpr h.nonempty
  have hall : digits.all isDigit = true :=
    List.all_eq_true.mpr fun c hc ↦ (isDigit_iff c).mpr (h.digits c hc)
  rw [h.text_eq]
  rcases h.sign with rfl | rfl | rfl
  · cases digits with
    | nil => contradiction
    | cons c digits =>
      have hc := h.digits c List.mem_cons_self
      have hminus : c ≠ '-' := by
        rintro rfl
        exact absurd hc (by decide)
      have hplus : c ≠ '+' := by
        rintro rfl
        exact absurd hc (by decide)
      unfold split?
      simp [hminus, hplus, hall]
  · unfold split?
    simp [hsome, hall]
  · unfold split?
    simp [hsome, hall]

theorem exists_isNumeral_of_split? (h : split? text = some (negative, digits)) :
    ∃ sign, IsNumeral text sign digits := by
  unfold split? at h
  -- The text begins with a sign, which is split off, or is all digits.
  split at h
  rename_i found _ hfound
  simp only [Option.ite_none_right_eq_some, Bool.and_eq_true, Bool.not_eq_true',
    List.isEmpty_eq_false_iff, List.all_eq_true, isDigit_iff, Option.some.injEq,
    Prod.mk.injEq] at h
  obtain ⟨⟨hsome, hall⟩, rfl, rfl⟩ := h
  split at hfound
  · cases hfound
    exact ⟨['-'], rfl, Or.inr (Or.inr rfl), hsome, hall⟩
  · cases hfound
    exact ⟨['+'], rfl, Or.inr (Or.inl rfl), hsome, hall⟩
  · cases hfound
    exact ⟨[], rfl, Or.inl rfl, hsome, hall⟩

end Numeral

/-! ### Tokens as integers -/

namespace TokenReader

variable {token : String} {rest : List String} {reader : TokenReader}

theorem integer_of_short {sign digits : List Char}
    (h : Numeral.IsNumeral token.toList sign digits)
    (hshort : digits.length ≤ Numeral.maxDigits) :
    integer token = .ok (Numeral.denoted sign digits) := by
  have hread := (Numeral.read_eq_ok_iff digits _).mpr ⟨hshort, rfl⟩
  unfold integer
  rw [Numeral.split?_of_isNumeral h]
  simp only [hread, Numeral.signed, decide_eq_true_iff, Numeral.ofDigits_eq_ofDigits,
    Numeral.denoted]

theorem integer_of_long {sign digits : List Char}
    (h : Numeral.IsNumeral token.toList sign digits)
    (hlong : Numeral.maxDigits < digits.length) :
    integer token = .error (.overlong (.reading digits.length)) := by
  have hread : Numeral.read digits = .error (.reading digits.length) :=
    if_neg (Nat.not_le_of_lt hlong)
  unfold integer
  rw [Numeral.split?_of_isNumeral h]
  simp only [hread]

theorem integer_of_not_isNumeral (h : ¬∃ sign digits, Numeral.IsNumeral token.toList sign digits) :
    integer token = .error (.fault (.inputParseError (some token))) := by
  unfold integer
  cases hsplit : Numeral.split? token.toList with
  | none => rfl
  | some found =>
    obtain ⟨sign, hnumeral⟩ := Numeral.exists_isNumeral_of_split? hsplit
    exact absurd ⟨sign, _, hnumeral⟩ h

theorem integer_eq_ok_iff (token : String) (n : Int) :
    integer token = .ok n ↔ ∃ sign digits, Numeral.IsNumeral token.toList sign digits ∧
      digits.length ≤ Numeral.maxDigits ∧ n = Numeral.denoted sign digits := by
  constructor
  · intro hread
    by_cases h : ∃ sign digits, Numeral.IsNumeral token.toList sign digits
    · obtain ⟨sign, digits, hnumeral⟩ := h
      by_cases hshort : digits.length ≤ Numeral.maxDigits
      · rw [integer_of_short hnumeral hshort] at hread
        exact ⟨sign, digits, hnumeral, hshort, (Except.ok.inj hread).symm⟩
      · rw [integer_of_long hnumeral (Nat.lt_of_not_le hshort)] at hread
        contradiction
    · rw [integer_of_not_isNumeral h] at hread
      contradiction
  · rintro ⟨sign, digits, hnumeral, hshort, rfl⟩
    exact integer_of_short hnumeral hshort

theorem nextInteger_of_remaining (h : reader.remaining = token :: rest) :
    reader.nextInteger.1 = integer token ∧ reader.nextInteger.2.remaining = rest := by
  obtain ⟨htoken, hrest⟩ := reader.next_eq
  rw [h] at htoken hrest
  refine ⟨?_, by rw [nextInteger_snd, hrest, List.tail_cons]⟩
  unfold nextInteger
  rcases hnext : reader.next with ⟨found, after⟩
  rw [hnext] at htoken
  cases htoken
  rfl

end TokenReader

/-! ### Written numbers as tokens -/

/-- What output instructions with these prompts write for these integers. -/
def Output.numberLines : List (String × Int) → String
  | [] => ""
  | (prompt, n) :: entries => prompt ++ toString n ++ "\n" ++ numberLines entries

namespace TokenReader

theorem tokens_number {gap : List Char} (hgap : ∀ c ∈ gap, Text.isBlank c = true) (n : Int) :
    tokens (gap ++ (toString n).toList) = [toString n] := by
  have hword : ∀ c ∈ (toString n).toList, Text.isBlank c = false := by
    intro c hc
    rcases Numeral.eq_minus_or_isDigit_of_mem hc with rfl | hdigit
    · decide
    · exact Text.isBlank_of_isDigit hdigit
  have hsome := Numeral.toList_toString_ne_nil n
  rw [tokens, Text.words_gap_append hgap, Text.words_of_word hword hsome, List.map_singleton,
    String.ofList_toList]

theorem tokens_numberLines {entries : List (String × Int)}
    (hblank : ∀ entry ∈ entries, ∀ c ∈ entry.1.toList, Text.isBlank c = true) :
    tokens (Output.numberLines entries).toList = entries.map fun entry ↦ toString entry.2 := by
  induction entries with
  | nil => rfl
  | cons entry entries ih =>
    obtain ⟨hfirst, hothers⟩ := List.forall_mem_cons.mp hblank
    have hline : (Output.numberLines (entry :: entries)).toList =
        entry.1.toList ++ (toString entry.2).toList ++
          '\n' :: (Output.numberLines entries).toList := by
      rw [Output.numberLines, String.toList_append, String.toList_append, String.toList_append,
        List.append_assoc]
      rfl
    rw [hline, tokens_newline, tokens_number hfirst, ih hothers]
    rfl

/-- Asked for integers only, a reader hands out those of the text and then tells of its end. -/
theorem askAll_integers {text : String} {integers : List Int}
    (htokens : tokens text.toList = integers.map toString)
    (hshort : ∀ n ∈ integers, n.natAbs < Numeral.bound) (more : Nat) :
    ((ofText text).askAll (List.replicate (integers.length + more) .integer)).1 =
      integers.map (fun n ↦ .integer (.ok n)) ++
        List.replicate more (.integer (.error (.fault (.inputParseError none)))) := by
  have hstart : Standing text.toList 0 (ofText text) := .untouched
  have hanswers := (hstart.askAll (List.replicate (integers.length + more) .integer)).1
  rw [htokens] at hanswers
  refine hanswers.trans (List.ext_getElem (by simp) fun i hi hi' ↦ ?_)
  rw [List.getElem_mapIdx, List.getElem_replicate, Nat.zero_add]
  by_cases hread : i < integers.length
  · have hn : integers[i].natAbs < Numeral.bound := hshort _ (List.getElem_mem hread)
    rw [List.getElem_append_left (by simpa using hread), List.getElem_map, List.getElem?_map,
      List.getElem?_eq_getElem hread]
    exact congrArg Answer.integer (integer_toString hn)
  · rw [List.getElem_append_right (by simpa using hread), List.getElem_replicate,
      List.getElem?_eq_none (by simpa using hread)]
    rfl

end TokenReader

/-! ### A machine that writes -/

namespace Machine

variable {machine : Machine}

/-- The machine is about to execute output instructions with these prompts, all of whose writes are
taken. -/
structure AboutToWrite (machine : Machine) (prompts : List String) : Prop where
  running : machine.halted = false
  accepts : ∀ writes, machine.output.refuses writes = false
  outputs : ∃ pc : Nat, machine.registers.pc.toInt = pc ∧
    ∀ k prompt, prompts[k]? = some prompt →
      machine.program.instructions[pc + k]? = some (.output prompt)

/-- The machine after a step for each of the integers, which is put into the accumulator before. -/
def afterShowing (machine : Machine) : List Int → Machine
  | [] => machine
  | n :: integers => ((machine.setAcc (.int n)).step.1).afterShowing integers

variable {prompt value : String} {prompts : List String}

theorem AboutToWrite.attempt_eq (h : machine.AboutToWrite (prompt :: prompts))
    (htext : machine.registers.acc.text = .ok value) :
    machine.attempt =
      ({ machine with output := (machine.output.write (prompt ++ value ++ "\n")).1 }, .ok 1) := by
  obtain ⟨pc, hpc, hat⟩ := h.outputs
  have hcurrent : machine.current? = some (.output prompt) :=
    (current?_eq_some_iff _ _).mpr ⟨pc, hpc, hat 0 prompt rfl⟩
  have hattempt : machine.attempt = machine.writeAcc prompt := attempt_of_current hcurrent
  rw [hattempt, writeAcc, htext, Output.write_of_accepting (h.accepts _)]
  simp only [Output.write_of_accepting (h.accepts _)]
  rfl

/-- One of the instructions is executed, and writes its line. -/
theorem AboutToWrite.step (h : machine.AboutToWrite (prompt :: prompts))
    (htext : machine.registers.acc.text = .ok value) :
    machine.step.1.AboutToWrite prompts ∧ machine.step.1.steps = machine.steps + 1 ∧
      machine.step.1.output.written = machine.output.written ++ (prompt ++ value ++ "\n") := by
  have hstep : ∃ journal, machine.step.1 =
      { ({ machine with output := (machine.output.write (prompt ++ value ++ "\n")).1 } :
        Machine).moved 1 with journal } := by
    rw [step_of_running h.running, h.attempt_eq htext]
    exact exists_journal_commit _ 1
  obtain ⟨journal, hstep⟩ := hstep
  obtain ⟨pc, hpc, hat⟩ := h.outputs
  rw [hstep]
  refine ⟨⟨h.running, ?_, pc + 1, ?_, ?_⟩, rfl, ?_⟩
  · exact fun writes ↦ (congrFun (Output.refuses_write _ _) writes).trans (h.accepts writes)
  · show machine.registers.pc.toInt + 1 = ((pc + 1 : Nat) : Int)
    rw [hpc]
    rfl
  · intro k later hlater
    have hnext := hat (k + 1) later hlater
    rwa [← Nat.add_assoc, Nat.add_right_comm] at hnext
  · show (machine.output.write (prompt ++ value ++ "\n")).1.written = _
    rw [Output.write_of_accepting (h.accepts _)]

theorem written_afterShowing {entries : List (String × Int)}
    (h : machine.AboutToWrite (entries.map Prod.fst))
    (hshort : ∀ entry ∈ entries, entry.2.natAbs < Numeral.bound) :
    (machine.afterShowing (entries.map Prod.snd)).steps = machine.steps + entries.length ∧
      (machine.afterShowing (entries.map Prod.snd)).output.written =
        machine.output.written ++ Output.numberLines entries := by
  induction entries generalizing machine with
  | nil => exact ⟨rfl, String.append_empty.symm⟩
  | cons entry entries ih =>
    obtain ⟨hfirst, hothers⟩ := List.forall_mem_cons.mp hshort
    have htext : Numeral.text entry.2 = .ok (toString entry.2) :=
      (Numeral.text_eq_ok_iff _ _).mpr ⟨hfirst, rfl⟩
    have hset : (machine.setAcc (.int entry.2)).AboutToWrite
        (entry.1 :: entries.map Prod.fst) := ⟨h.running, h.accepts, h.outputs⟩
    obtain ⟨hnext, hsteps, hwritten⟩ := hset.step htext
    obtain ⟨hallSteps, hallWritten⟩ := ih hnext hothers
    rw [List.map_cons, afterShowing]
    constructor
    · rw [hallSteps, hsteps, List.length_cons, Nat.add_assoc, Nat.add_comm 1]
      rfl
    · rw [hallWritten, hwritten, Output.numberLines, String.append_assoc]
      rfl

/-- Numbers written one after the other, with nothing but blanks as prompts, are read back from the
text written, in their order and to its end. And whatever token is next, it alone is taken, and is
an integer exactly if it is a sign, or none, and digits, and not too long. -/
theorem written_numbers_are_read_back :
    (∀ (machine : Machine) (entries : List (String × Int)),
      machine.AboutToWrite (entries.map Prod.fst) →
      (∀ entry ∈ entries, ∀ c ∈ entry.1.toList, Text.isBlank c = true) →
      (∀ entry ∈ entries, entry.2.natAbs < Numeral.bound) →
      let last := machine.afterShowing (entries.map Prod.snd)
      last.steps = machine.steps + entries.length ∧
        ∃ text, last.output.written = machine.output.written ++ text ∧
          ∀ more, ((TokenReader.ofText text).askAll
              (List.replicate (entries.length + more) .integer)).1 =
            entries.map (fun entry ↦ .integer (.ok entry.2)) ++
              List.replicate more (.integer (.error (.fault (.inputParseError none))))) ∧
    ∀ (reader : TokenReader) (token : String) (rest : List String),
      reader.remaining = token :: rest →
      reader.nextInteger.2.remaining = rest ∧
      (∀ n, reader.nextInteger.1 = .ok n ↔
        ∃ sign digits, Numeral.IsNumeral token.toList sign digits ∧
          digits.length ≤ Numeral.maxDigits ∧ n = Numeral.denoted sign digits) ∧
      (∀ sign digits, Numeral.IsNumeral token.toList sign digits →
        Numeral.maxDigits < digits.length →
        reader.nextInteger.1 = .error (.overlong (.reading digits.length))) ∧
      ((¬∃ sign digits, Numeral.IsNumeral token.toList sign digits) →
        reader.nextInteger.1 = .error (.fault (.inputParseError (some token)))) := by
  constructor
  · intro machine entries hstands hblank hshort last
    obtain ⟨hsteps, hwritten⟩ := written_afterShowing hstands hshort
    refine ⟨hsteps, Output.numberLines entries, hwritten, fun more ↦ ?_⟩
    have htokens : TokenReader.tokens (Output.numberLines entries).toList =
        (entries.map Prod.snd).map toString := by
      rw [TokenReader.tokens_numberLines hblank, List.map_map]
      rfl
    have hanswers := TokenReader.askAll_integers htokens (List.forall_mem_map.mpr hshort) more
    rwa [List.length_map, List.map_map] at hanswers
  · intro reader token rest hremaining
    obtain ⟨hresult, hrest⟩ := TokenReader.nextInteger_of_remaining hremaining
    rw [hresult]
    exact ⟨hrest, TokenReader.integer_eq_ok_iff token,
      fun _ _ ↦ TokenReader.integer_of_long, TokenReader.integer_of_not_isNumeral⟩

/-- Two numbers, one of them negative and with a space as its prompt, are read back to the end of the
text. A token with a sign and leading zeros is an integer, and the token behind it stays. -/
theorem written_numbers_are_read_back_of_two :
    let program : Program := ⟨#[.output " ", .output ""], [], rfl, by decide,
      Labels.targets_of_undefined? rfl⟩
    let machine := start program { r := [] }
    let entries : List (String × Int) := [(" ", -12), ("", 5)]
    let reader : TokenReader := { pending := ["+007", "x"] }
    (∃ text, (machine.afterShowing (entries.map Prod.snd)).output.written = "" ++ text ∧
      ((TokenReader.ofText text).askAll [.integer, .integer, .integer]).1 =
        [.integer (.ok (-12)), .integer (.ok 5),
          .integer (.error (.fault (.inputParseError none)))]) ∧
    reader.nextInteger.1 = .ok 7 ∧ reader.nextInteger.2.remaining = ["x"] := by
  intro program machine entries reader
  obtain ⟨hwritten, hread⟩ := written_numbers_are_read_back
  have hstands : machine.AboutToWrite (entries.map Prod.fst) := by
    refine ⟨rfl, fun _ ↦ rfl, 0, rfl, ?_⟩
    intro k prompt hprompt
    rw [Nat.zero_add]
    match k with
    | 0 => cases hprompt; rfl
    | 1 => cases hprompt; rfl
  have hshort : ∀ entry ∈ entries, entry.2.natAbs < Numeral.bound := by
    have hdigits : ∀ entry ∈ entries, entry.2.natAbs < Nat.pow 10 2 := by decide
    exact fun entry hmem ↦ Numeral.lt_bound_of_lt_pow (hdigits entry hmem) (by decide)
  have hblank : ∀ entry ∈ entries, ∀ c ∈ entry.1.toList, Text.isBlank c = true := by
    have hspace : " ".toList = [' '] := by decide
    have hempty : "".toList = [] := by decide
    simp only [entries, List.forall_mem_cons, hspace, hempty]
    exact ⟨⟨by decide, nofun⟩, nofun, nofun⟩
  obtain ⟨-, text, htext, hanswers⟩ := hwritten machine entries hstands hblank hshort
  obtain ⟨hrest, hinteger, -⟩ := hread reader "+007" ["x"] rfl
  refine ⟨⟨text, htext, hanswers 1⟩, (hinteger 7).mpr ?_, hrest⟩
  have hdigits : ∀ c ∈ ['0', '0', '7'], '0' ≤ c ∧ c ≤ '9' := by
    simp only [List.forall_mem_cons]
    exact ⟨by decide, by decide, by decide, nofun⟩
  have hnumeral : Numeral.IsNumeral "+007".toList ['+'] ['0', '0', '7'] :=
    ⟨rfl, Or.inr (Or.inl rfl), List.cons_ne_nil _ _, hdigits⟩
  exact ⟨['+'], ['0', '0', '7'], hnumeral, by decide, rfl⟩

end Machine

end Accumulator
