import Accumulator.Proofs.Lockstep
import Accumulator.Proofs.Provenance
import Accumulator.Proofs.Reading
import Accumulator.Proofs.Refinement

/-!
What goes over the console in a run. Each step makes one exchange at most: it shows a prompt and
takes a token, or shows the accumulator. The text written and the tokens taken are those of the
exchanges so far, in their order (`afterSteps_accounts`), so that a token that was not taken makes
no difference (`Plain.depends_on_taken`).
-/

set_option autoImplicit false
set_option relaxedAutoImplicit false

namespace Accumulator

/-- What a step does with the console: it asks for a token, or shows a value. -/
inductive Exchange where
  | asked (prompt : String)
  | showed (prompt value : String)
  deriving DecidableEq, Repr

namespace Exchange

def text : Exchange → String
  | .asked prompt => prompt
  | .showed prompt value => prompt ++ value ++ "\n"

def isAsked : Exchange → Bool
  | .asked _ => true
  | .showed _ _ => false

end Exchange

/-- What an input instruction makes of the next token, if there is one. -/
def TokenReader.received : Option String → Except Failure Int
  | none => .error (.fault (.inputParseError none))
  | some token => integer token

theorem TokenReader.nextInteger_eq_received {reader : TokenReader}
    (huninterrupted : reader.interrupts = false) :
    reader.nextInteger.1 = received reader.remaining.head? := by
  rw [nextInteger_fst huninterrupted]
  cases reader.remaining <;> rfl

namespace Machine

variable {machine after first second third : Machine} {instruction : Instruction}
  {instructions : List Instruction} {earlier later : List Exchange} {reader left : TokenReader}
  {prompt value : String} {m n : Nat}

/-! ### The exchanges of a run -/

/-- What an instruction does with the console, if that is not refused. -/
def exchangeOf? (machine : Machine) (instruction : Instruction) : Option Exchange :=
  if machine.output.refuses machine.output.writes then none
  else
    match instruction with
    | .input prompt => some (.asked prompt)
    | .output prompt => machine.registers.acc.text.toOption.map (.showed prompt)
    | _ => none

/-- What the next step does with the console. -/
def exchange? (machine : Machine) : Option Exchange :=
  if machine.halted then none else machine.current?.bind machine.exchangeOf?

/-- The exchanges of so many steps, in their order. -/
def exchanges (machine : Machine) : Nat → List Exchange
  | 0 => []
  | n + 1 => machine.exchanges n ++ (machine.afterSteps n).exchange?.toList

/-- How many tokens so many steps asked for. -/
def asked (machine : Machine) (n : Nat) : Nat := (machine.exchanges n).countP Exchange.isAsked

theorem exchange?_of_current (hrunning : machine.halted = false)
    (hcurrent : machine.current? = some instruction) :
    machine.exchange? = machine.exchangeOf? instruction := by
  simp only [exchange?, hrunning, hcurrent, Option.bind_some, Bool.false_eq_true, if_false]

theorem exists_current_of_exchange {exchange : Exchange}
    (h : machine.exchange? = some exchange) :
    machine.halted = false ∧ ∃ instruction, machine.current? = some instruction ∧
      machine.exchangeOf? instruction = some exchange := by
  unfold exchange? at h
  split at h
  · contradiction
  · rename_i hrunning
    exact ⟨Bool.not_eq_true _ ▸ hrunning, Option.bind_eq_some_iff.mp h⟩

/-- The exchanges account for all that was written and all that was taken in between. -/
structure Accounts (first : Machine) (exchanges : List Exchange) (second : Machine) : Prop where
  written : second.output.written =
    first.output.written ++ String.join (exchanges.map Exchange.text)
  remaining : second.input.remaining =
    first.input.remaining.drop (exchanges.countP Exchange.isAsked)

theorem Accounts.of_silent (hwritten : second.output.written = first.output.written)
    (hinput : second.input = first.input) : Accounts first [] second where
  written := hwritten.trans (String.append_empty).symm
  remaining := by rw [hinput, List.countP_nil, List.drop_zero]

theorem Accounts.trans (hearlier : Accounts first earlier second)
    (hlater : Accounts second later third) : Accounts first (earlier ++ later) third where
  written := by
    rw [hlater.written, hearlier.written, List.map_append, String.join_append, String.append_assoc]
  remaining := by
    rw [hlater.remaining, hearlier.remaining, List.drop_drop, List.countP_append]

theorem readAcc_accounts (machine : Machine) (prompt : String) :
    Accounts machine (machine.exchangeOf? (.input prompt)).toList (machine.readAcc prompt).1 := by
  unfold readAcc exchangeOf?
  cases hrefuses : machine.output.refuses machine.output.writes with
  | true =>
    rw [Output.write_of_refusing hrefuses]
    exact .of_silent rfl rfl
  | false =>
    have htaken := machine.input.next_eq.2
    rw [← machine.input.nextInteger_snd, ← List.drop_one] at htaken
    have hprompted : machine.output.written ++ prompt =
        machine.output.written ++ String.join ([Exchange.asked prompt].map Exchange.text) := by
      simp [Exchange.text]
    rw [Output.write_of_accepting hrefuses]
    rcases hnext : machine.input.nextInteger with ⟨result, input⟩
    rw [hnext] at htaken
    cases result with
    | ok n => exact ⟨hprompted, htaken⟩
    | error failure => exact ⟨hprompted, htaken⟩

theorem writeAcc_accounts (machine : Machine) (prompt : String) :
    Accounts machine (machine.exchangeOf? (.output prompt)).toList (machine.writeAcc prompt).1 := by
  unfold writeAcc exchangeOf?
  cases hrefuses : machine.output.refuses machine.output.writes with
  | true =>
    cases machine.registers.acc.text with
    | error cause => exact .of_silent rfl rfl
    | ok acc =>
      simp only [Output.write_of_refusing hrefuses]
      exact .of_silent rfl rfl
  | false =>
    cases machine.registers.acc.text with
    | error cause => exact .of_silent rfl rfl
    | ok acc =>
      have hshown : machine.output.written ++ (prompt ++ acc ++ "\n") = machine.output.written ++
          String.join ([Exchange.showed prompt acc].map Exchange.text) := by
        simp [Exchange.text]
      simp only [Output.write_of_accepting hrefuses]
      exact ⟨hshown, rfl⟩

/-- Whatever becomes of an instruction, its exchange accounts for it. -/
theorem execute_accounts (machine : Machine) (instruction : Instruction) :
    Accounts machine (machine.exchangeOf? instruction).toList (machine.execute instruction).1 := by
  have haccumulate (index : Value) (combine : Value → Value → Value) :
      Accounts machine [] (machine.accumulate index combine).1 := by
    unfold accumulate
    split <;> exact .of_silent rfl rfl
  have hnone {instruction : Instruction} (h : Accounts machine [] (machine.execute instruction).1)
      (hsilent : machine.exchangeOf? instruction = none) :
      Accounts machine (machine.exchangeOf? instruction).toList
        (machine.execute instruction).1 := by
    rw [hsilent]
    exact h
  cases instruction with
  | input prompt => exact machine.readAcc_accounts prompt
  | output prompt => exact machine.writeAcc_accounts prompt
  | add index => exact hnone (by rw [execute]; exact haccumulate index _) (ite_self none)
  | sub index => exact hnone (by rw [execute]; exact haccumulate index _) (ite_self none)
  | load index => exact hnone (by rw [execute]; exact haccumulate index _) (ite_self none)
  | store index =>
    refine hnone ?_ (ite_self none)
    rw [execute, storeAcc]
    split <;> exact .of_silent rfl rfl
  | _ => exact hnone (.of_silent rfl rfl) (ite_self none)

theorem step_accounts (machine : Machine) :
    Accounts machine machine.exchange?.toList machine.step.1 := by
  have hattempted (hrunning : machine.halted = false) :
      Accounts machine machine.exchange?.toList machine.attempt.1 := by
    cases hcurrent : machine.current? with
    | none =>
      have hsilent : machine.exchange? = none := by
        rw [exchange?, hcurrent, Option.bind_none, ite_self]
      rw [attempt_of_no_current hcurrent, hsilent]
      exact .of_silent rfl rfl
    | some instruction =>
      rw [attempt_of_current hcurrent, exchange?_of_current hrunning hcurrent]
      exact machine.execute_accounts instruction
  rcases machine.step_cases with ⟨hhalted, hstep⟩ | ⟨after, failure, hrunning, hattempt, hstep⟩ |
    ⟨after, displacement, hrunning, hattempt, hstep⟩
  · rw [hstep, exchange?, if_pos hhalted]
    exact .of_silent rfl rfl
  · rw [hstep, ← congrArg Prod.fst hattempt]
    exact hattempted hrunning
  · obtain ⟨journal, hcommit⟩ := after.exists_journal_commit displacement
    have haccounts := hattempted hrunning
    rw [hattempt] at haccounts
    rw [hstep, hcommit]
    exact ⟨haccounts.written, haccounts.remaining⟩

theorem afterSteps_accounts (machine : Machine) (n : Nat) :
    Accounts machine (machine.exchanges n) (machine.afterSteps n) := by
  induction n with
  | zero => exact .of_silent rfl rfl
  | succ n ih => exact ih.trans (machine.afterSteps n).step_accounts

theorem asked_succ (machine : Machine) (n : Nat) :
    machine.asked (n + 1) = machine.asked n +
      (machine.afterSteps n).exchange?.toList.countP Exchange.isAsked :=
  List.countP_append

theorem remaining_afterSteps (machine : Machine) (n : Nat) :
    (machine.afterSteps n).input.remaining = machine.input.remaining.drop (machine.asked n) :=
  (machine.afterSteps_accounts n).remaining

/-- Only an input instruction asks for a token. -/
theorem current?_of_asked (h : machine.exchange? = some (.asked prompt)) :
    machine.halted = false ∧ machine.current? = some (.input prompt) := by
  obtain ⟨hrunning, instruction, hcurrent, hexchange⟩ := exists_current_of_exchange h
  refine ⟨hrunning, ?_⟩
  unfold exchangeOf? at hexchange
  split at hexchange
  · contradiction
  · cases instruction with
    | input other =>
      cases hexchange
      exact hcurrent
    | output other =>
      obtain ⟨_, -, hshowed⟩ := Option.map_eq_some_iff.mp hexchange
      contradiction
    | _ => contradiction

/-- Only an output instruction shows a value, and that is the accumulator. -/
theorem current?_of_showed (h : machine.exchange? = some (.showed prompt value)) :
    machine.halted = false ∧ machine.current? = some (.output prompt) ∧
      machine.registers.acc.text = .ok value := by
  obtain ⟨hrunning, instruction, hcurrent, hexchange⟩ := exists_current_of_exchange h
  refine ⟨hrunning, ?_⟩
  unfold exchangeOf? at hexchange
  split at hexchange
  · contradiction
  · cases instruction with
    | output other =>
      obtain ⟨text, htext, hshowed⟩ := Option.map_eq_some_iff.mp hexchange
      cases hshowed
      refine ⟨hcurrent, ?_⟩
      cases hacc : machine.registers.acc.text with
      | error cause =>
        rw [hacc] at htext
        contradiction
      | ok acc =>
        rw [hacc] at htext
        cases htext
        rfl
    | input other => cases hexchange
    | _ => contradiction

/-! ### A console that works -/

theorem plain_afterSteps (h : Plain instructions machine) (n : Nat) :
    Plain instructions (machine.afterSteps n) :=
  afterSteps_preserves (fun _ ↦ plain_step) machine h n

/-- An input instruction shows its prompt, whatever it gets, and gets the next token. -/
theorem Plain.step_of_input (h : Plain instructions machine) (hrunning : machine.halted = false)
    (hcurrent : machine.current? = some (.input prompt)) :
    machine.exchange? = some (.asked prompt) ∧
      match TokenReader.received machine.input.remaining.head? with
      | .ok v => machine.step.2 = .ok true ∧ machine.step.1.registers =
          { machine.registers with acc := .int v, pc := .int (machine.registers.pc.toInt + 1) }
      | .error failure =>
          machine.step.2 = .error failure ∧ machine.step.1.registers = machine.registers := by
  constructor
  · rw [exchange?_of_current hrunning hcurrent, exchangeOf?, h.accepting]
    rfl
  · have hattempt : machine.attempt = machine.readAcc prompt := attempt_of_current hcurrent
    rw [← TokenReader.nextInteger_eq_received h.uninterrupted]
    unfold readAcc at hattempt
    rw [Output.write_of_accepting (h.accepting _)] at hattempt
    rcases hnext : machine.input.nextInteger with ⟨result, input⟩
    rw [hnext] at hattempt
    cases result with
    | ok v =>
      rw [step_of_displacement hrunning h.untraced hattempt Int.one_ne_zero]
      exact ⟨rfl, rfl⟩
    | error failure =>
      rw [step_of_running hrunning, hattempt]
      exact ⟨rfl, rfl⟩

/-- An output instruction shows the accumulator if that is short enough for a text. -/
theorem Plain.step_of_output (h : Plain instructions machine) (hrunning : machine.halted = false)
    (hcurrent : machine.current? = some (.output prompt))
    (htext : machine.registers.acc.text = .ok value) :
    machine.exchange? = some (.showed prompt value) ∧ machine.step.2 = .ok true := by
  have hattempt : machine.attempt = machine.writeAcc prompt := attempt_of_current hcurrent
  unfold writeAcc at hattempt
  rw [htext] at hattempt
  simp only [Output.write_of_accepting (h.accepting _)] at hattempt
  rw [exchange?_of_current hrunning hcurrent, exchangeOf?, h.accepting, htext,
    step_of_displacement hrunning h.untraced hattempt Int.one_ne_zero]
  exact ⟨rfl, rfl⟩

theorem Plain.exchange?_eq_asked_iff (h : Plain instructions machine) :
    machine.exchange? = some (.asked prompt) ↔
      machine.halted = false ∧ machine.current? = some (.input prompt) := by
  refine ⟨current?_of_asked, ?_⟩
  rintro ⟨hrunning, hcurrent⟩
  exact (h.step_of_input hrunning hcurrent).1

theorem Plain.exchange?_eq_showed_iff (h : Plain instructions machine) :
    machine.exchange? = some (.showed prompt value) ↔
      machine.halted = false ∧ machine.current? = some (.output prompt) ∧
        machine.registers.acc.text = .ok value ∧ machine.step.2 = .ok true := by
  constructor
  · intro hshowed
    obtain ⟨hrunning, hcurrent, htext⟩ := current?_of_showed hshowed
    exact ⟨hrunning, hcurrent, htext, (h.step_of_output hrunning hcurrent htext).2⟩
  · rintro ⟨hrunning, hcurrent, htext, -⟩
    exact (h.step_of_output hrunning hcurrent htext).1

/-- A machine that begins with integers shows integers only. -/
theorem exists_integer_of_showed (hintegers : ∀ cell b, machine.registers.at? cell ≠ some (.bool b))
    (hshowed : (machine.afterSteps n).exchange? = some (.showed prompt value)) :
    ∃ v : Int, (machine.afterSteps n).registers.acc = .int v ∧ value = toString v := by
  obtain ⟨v, hacc⟩ := acc_isInteger hintegers n
  obtain ⟨-, -, htext⟩ := current?_of_showed hshowed
  rw [hacc] at htext
  exact ⟨v, hacc, ((Numeral.text_eq_ok_iff v value).mp htext).2⟩

/-! ### The tokens taken -/

theorem asked_cases (machine : Machine) (n : Nat) :
    machine.asked (n + 1) = machine.asked n ∨
      machine.asked (n + 1) = machine.asked n + 1 ∧
        ∃ prompt, (machine.afterSteps n).exchange? = some (.asked prompt) := by
  rw [asked_succ]
  cases (machine.afterSteps n).exchange? with
  | none => exact Or.inl rfl
  | some exchange =>
    cases exchange with
    | showed prompt value => exact Or.inl rfl
    | asked prompt => exact Or.inr ⟨rfl, prompt, rfl⟩

theorem asked_mono (machine : Machine) (hle : m ≤ n) : machine.asked m ≤ machine.asked n := by
  induction hle with
  | refl => exact Nat.le_refl _
  | step _ ih =>
    rw [asked_succ]
    exact Nat.le_add_right_of_le ih

theorem Plain.asked_succ_of_input (h : Plain instructions machine)
    (hrunning : (machine.afterSteps n).halted = false)
    (hcurrent : (machine.afterSteps n).current? = some (.input prompt)) :
    machine.asked (n + 1) = machine.asked n + 1 := by
  rw [asked_succ, (plain_afterSteps h n).exchange?_eq_asked_iff.mpr ⟨hrunning, hcurrent⟩]
  rfl

/-- The first step to ask for a token gets the first, the next one the second, and so on. -/
theorem Plain.step_of_asked (h : Plain instructions machine)
    (hasked : (machine.afterSteps n).exchange? = some (.asked prompt)) :
    match TokenReader.received machine.input.remaining[machine.asked n]? with
    | .ok v => (machine.afterSteps n).step.2 = .ok true ∧
        (machine.afterSteps n).step.1.registers.acc = .int v
    | .error failure => (machine.afterSteps n).step.2 = .error failure ∧
        (machine.afterSteps n).step.1.registers = (machine.afterSteps n).registers := by
  obtain ⟨hrunning, hcurrent⟩ := current?_of_asked hasked
  obtain ⟨-, hreceived⟩ := (plain_afterSteps h n).step_of_input hrunning hcurrent
  rw [remaining_afterSteps, List.head?_drop] at hreceived
  cases hresult : TokenReader.received machine.input.remaining[machine.asked n]? with
  | ok v =>
    rw [hresult] at hreceived
    exact ⟨hreceived.1, by rw [hreceived.2]⟩
  | error failure =>
    rw [hresult] at hreceived
    exact hreceived

/-- The tokens asked for were all there, unless a step met the end of the input. -/
theorem Plain.asked_le (h : Plain instructions machine)
    (hfound : ∀ i < n, (machine.afterSteps i).step.2 ≠ .error (.fault (.inputParseError none))) :
    machine.asked n ≤ machine.input.remaining.length := by
  induction n with
  | zero => exact Nat.zero_le _
  | succ n ih =>
    have hbefore := ih fun i hi ↦ hfound i (Nat.lt_succ_of_lt hi)
    rcases machine.asked_cases n with heq | ⟨heq, prompt, hasked⟩
    · rw [heq]
      exact hbefore
    · have hreceived := h.step_of_asked hasked
      cases htoken : machine.input.remaining[machine.asked n]? with
      | none =>
        rw [htoken] at hreceived
        exact absurd hreceived.1 (hfound n (Nat.lt_succ_self n))
      | some token =>
        rw [heq]
        exact (List.getElem?_eq_some_iff.mp htoken).1

/-! ### Another reader with the same tokens in front -/

/-- What is left of another reader once the tokens are taken that so many steps ask for. -/
structure Leaves (machine : Machine) (n : Nat) (reader left : TokenReader) : Prop where
  remaining : left.remaining = reader.remaining.drop (machine.asked n)
  uninterrupted : left.interrupts = false

theorem Plain.step_of_shared (h : Plain instructions machine)
    (hleaves : Leaves machine n reader left)
    (hshared : reader.remaining.take (machine.asked (n + 1)) =
      machine.input.remaining.take (machine.asked (n + 1))) :
    ∃ later, ((machine.afterSteps n).withInput left).step =
        ((machine.afterSteps (n + 1)).withInput later, (machine.afterSteps n).step.2) ∧
      Leaves machine (n + 1) reader later := by
  have hplain := plain_afterSteps h n
  have hsame : ∀ prompt, (machine.afterSteps n).halted = false →
      (machine.afterSteps n).current? = some (.input prompt) →
      left.nextInteger.1 = (machine.afterSteps n).input.nextInteger.1 := by
    intro prompt hrunning hcurrent
    -- The step asks for a token, so that the one it gets is among those shared.
    have hlt : machine.asked n < machine.asked (n + 1) := by
      rw [h.asked_succ_of_input hrunning hcurrent]
      exact Nat.lt_succ_self _
    have htoken := congrArg (·[machine.asked n]?) hshared
    simp only [List.getElem?_take_of_lt hlt] at htoken
    rw [TokenReader.nextInteger_eq_received hleaves.uninterrupted,
      TokenReader.nextInteger_eq_received hplain.uninterrupted, hleaves.remaining,
      remaining_afterSteps, List.head?_drop, List.head?_drop, htoken]
  obtain ⟨later, hstep, -⟩ := step_withInput _ hsame
  have htaken := ((machine.afterSteps n).withInput left).step_accounts.remaining
  have hkept := ((machine.afterSteps n).withInput left).interrupts_step
  rw [hstep] at htaken hkept
  refine ⟨later, hstep, ?_, hkept.trans hleaves.uninterrupted⟩
  calc later.remaining
      = left.remaining.drop
          ((machine.afterSteps n).exchange?.toList.countP Exchange.isAsked) := htaken
    _ = reader.remaining.drop (machine.asked (n + 1)) := by
      rw [hleaves.remaining, List.drop_drop, asked_succ]

/-- The tokens that fewer steps ask for are shared if those are that more steps ask for. -/
theorem shared_of_le (hle : m ≤ n)
    (hshared : reader.remaining.take (machine.asked n) =
      machine.input.remaining.take (machine.asked n)) :
    reader.remaining.take (machine.asked m) = machine.input.remaining.take (machine.asked m) := by
  have hfewer := congrArg (List.take (machine.asked m)) hshared
  rwa [List.take_take, List.take_take, Nat.min_eq_left (machine.asked_mono hle)] at hfewer

/-- Many steps are the same with another reader that has those tokens in front which they ask
for. -/
theorem Plain.afterSteps_of_shared (h : Plain instructions machine)
    (huninterrupted : reader.interrupts = false)
    (hshared : reader.remaining.take (machine.asked n) =
      machine.input.remaining.take (machine.asked n)) :
    ∃ left, (machine.withInput reader).afterSteps n = (machine.afterSteps n).withInput left ∧
      Leaves machine n reader left := by
  induction n with
  | zero => exact ⟨reader, rfl, rfl, huninterrupted⟩
  | succ n ih =>
    obtain ⟨left, hafter, hleaves⟩ := ih (shared_of_le (Nat.le_succ n) hshared)
    obtain ⟨later, hstep, hlater⟩ := h.step_of_shared hleaves hshared
    refine ⟨later, ?_, hlater⟩
    rw [afterSteps, hafter, hstep]

theorem Plain.agree_of_shared (h : Plain instructions machine)
    (huninterrupted : reader.interrupts = false)
    (hshared : reader.remaining.take (machine.asked n) =
      machine.input.remaining.take (machine.asked n)) :
    Agree n machine (machine.withInput reader) := by
  constructor
  · intro i hi
    obtain ⟨left, hafter, -⟩ := h.afterSteps_of_shared huninterrupted (shared_of_le hi hshared)
    rw [hafter]
    rfl
  · intro i hi
    obtain ⟨left, hafter, hleaves⟩ :=
      h.afterSteps_of_shared huninterrupted (shared_of_le (Nat.le_of_lt hi) hshared)
    obtain ⟨later, hstep, -⟩ := h.step_of_shared hleaves (shared_of_le hi hshared)
    rw [hafter, hstep]

/-- A reader that has other tokens behind those that were taken shares these, and no others are
taken. -/
theorem shared_of_front {rest : List String}
    (hle : machine.asked n ≤ machine.input.remaining.length)
    (hfront : reader.remaining = machine.input.remaining.take (machine.asked n) ++ rest) :
    reader.remaining.take (machine.asked n) = machine.input.remaining.take (machine.asked n) ∧
      reader.remaining.drop (machine.asked n) = rest := by
  have htaken : (machine.input.remaining.take (machine.asked n)).length = machine.asked n := by
    rw [List.length_take, Nat.min_eq_left hle]
  rw [hfront]
  exact ⟨List.take_left' htaken, List.drop_left' htaken⟩

/-- What is done depends on the tokens taken only, unless a step meets the end of the input. -/
theorem Plain.depends_on_taken {rest : List String} (h : Plain instructions machine)
    (huninterrupted : reader.interrupts = false)
    (hfound : ∀ i < n, (machine.afterSteps i).step.2 ≠ .error (.fault (.inputParseError none)))
    (hfront : reader.remaining = machine.input.remaining.take (machine.asked n) ++ rest) :
    (∀ i ≤ n, ∃ left, (machine.withInput reader).afterSteps i =
        (machine.afterSteps i).withInput left ∧
      left.remaining = reader.remaining.drop (machine.asked i)) ∧
    Agree n machine (machine.withInput reader) ∧
    ((machine.withInput reader).afterSteps n).input.remaining = rest ∧
    ∀ operations last, Calls operations machine n last →
      Calls operations (machine.withInput reader) n
        (last.withInput ((machine.withInput reader).afterSteps n).input) := by
  obtain ⟨hshared, hrest⟩ := shared_of_front (h.asked_le hfound) hfront
  have hagree := h.agree_of_shared huninterrupted hshared
  obtain ⟨left, hlast, hleaves⟩ := h.afterSteps_of_shared huninterrupted hshared
  refine ⟨?_, hagree, ?_, ?_⟩
  · intro i hi
    obtain ⟨left, hafter, hleaves⟩ :=
      h.afterSteps_of_shared huninterrupted (shared_of_le hi hshared)
    exact ⟨left, hafter, hleaves.remaining⟩
  · rw [hlast, ← hrest]
    exact hleaves.remaining
  · intro operations last hcalls
    have hinput : ((machine.withInput reader).afterSteps n).input = left := by
      rw [hlast]
      rfl
    rw [hinput, hcalls.last_eq, ← hlast]
    exact hcalls.of_agree hagree

/-- In a session of steps and runs, failures included, the text written is that of the exchanges:
the prompt of each input instruction attempted, and prompt and accumulator of each output
instruction carried out, in their order. Each input instruction attempted takes the next token,
until there is none left. So what is done depends on the tokens that are taken, and another reader
with these in front has its other tokens left. -/
theorem console_is_accounted_for (program : Program) (registers : Registers) (input : TokenReader)
    (output : Output) (huninterrupted : input.interrupts = false)
    (haccepting : ∀ writes, output.refuses writes = false) :
    let machine := start program registers input output
    let tokens := input.remaining
    (∀ operations last, PerformsAll operations machine last →
      (∀ operation ∈ operations, operation = .step ∨ ∃ budget, operation = .run budget) →
        ∃ n, Calls operations machine n last ∧ last = machine.afterSteps n) ∧
    (∀ n, (machine.afterSteps n).output.written =
        output.written ++ String.join ((machine.exchanges n).map Exchange.text) ∧
      (machine.afterSteps n).input.remaining = tokens.drop (machine.asked n)) ∧
    (∀ n prompt, let before := machine.afterSteps n
      (before.exchange? = some (.asked prompt) ↔
        before.halted = false ∧ before.current? = some (.input prompt)) ∧
      (before.exchange? = some (.asked prompt) →
        match TokenReader.received tokens[machine.asked n]? with
        | .ok v => before.step.2 = .ok true ∧ before.step.1.registers.acc = .int v
        | .error failure =>
            before.step.2 = .error failure ∧ before.step.1.registers = before.registers) ∧
      ∀ value, before.exchange? = some (.showed prompt value) ↔
        before.halted = false ∧ before.current? = some (.output prompt) ∧
          before.registers.acc.text = .ok value ∧ before.step.2 = .ok true) ∧
    ((∀ cell b, registers.at? cell ≠ some (.bool b)) → ∀ n prompt value,
      (machine.afterSteps n).exchange? = some (.showed prompt value) →
        ∃ v : Int, (machine.afterSteps n).registers.acc = .int v ∧ value = toString v) ∧
    ∀ n rest other, other.interrupts = false →
      (∀ i < n, (machine.afterSteps i).step.2 ≠ .error (.fault (.inputParseError none))) →
      other.remaining = tokens.take (machine.asked n) ++ rest →
        let twin := start program registers other output
        machine.asked n ≤ tokens.length ∧
        (∀ i ≤ n, ∃ left, twin.afterSteps i = (machine.afterSteps i).withInput left ∧
          left.remaining = other.remaining.drop (machine.asked i)) ∧
        (∀ i < n, (twin.afterSteps i).step.2 = (machine.afterSteps i).step.2) ∧
        (twin.afterSteps n).input.remaining = rest ∧
        ∀ operations last, Calls operations machine n last →
          Calls operations twin n (last.withInput (twin.afterSteps n).input) := by
  intro machine tokens
  have hplain : Plain program.instructions.toList machine :=
    ⟨rfl, ⟨0, rfl⟩, haccepting, huninterrupted, rfl⟩
  refine ⟨?_, ?_, ?_, ?_, ?_⟩
  · intro operations last hsession hcalls
    obtain ⟨n, hcalled⟩ := Calls.of_performsAll hsession hcalls
    exact ⟨n, hcalled, hcalled.last_eq⟩
  · intro n
    exact ⟨(machine.afterSteps_accounts n).written, machine.remaining_afterSteps n⟩
  · intro n prompt before
    have hbefore : Plain program.instructions.toList before := plain_afterSteps hplain n
    exact ⟨hbefore.exchange?_eq_asked_iff, hplain.step_of_asked,
      fun value ↦ hbefore.exchange?_eq_showed_iff⟩
  · intro hintegers n prompt value hshowed
    refine exists_integer_of_showed (fun cell b ↦ ?_) hshowed
    rw [at?_start]
    exact hintegers cell b
  · intro n rest other hother hfound hfront twin
    obtain ⟨hsame, hagree, hrest, hcalls⟩ := hplain.depends_on_taken hother hfound hfront
    exact ⟨hplain.asked_le hfound, hsame, hagree.results, hrest, hcalls⟩

/-- A token that is no number is taken with its prompt shown, and the prompt is shown again for the
next. Another third token would not have been noticed. -/
theorem console_of_repeated_prompt :
    let program : Program := ⟨#[.input "n? ", .output "n = ", .halt], [], rfl, by decide,
      Labels.targets_of_undefined? rfl⟩
    let machine := start program { r := [] } (.ofTokens ["x", "7", "8"])
    let twin := start program { r := [] } (.ofTokens ["x", "7", "y", "8"])
    ∃ last, PerformsAll [.run .unlimited, .step, .step] machine last ∧
      last.output.written = "n? n? n = 7\n" ∧ last.input.remaining = ["8"] ∧
      (machine.afterSteps 1).step.2 = .ok true ∧
      (∃ left, twin.afterSteps 3 = last.withInput left) ∧
      (twin.afterSteps 3).input.remaining = ["y", "8"] := by
  intro program machine twin
  obtain ⟨-, haccount, hexchanges, -, hshared⟩ :=
    console_is_accounted_for program { r := [] } (.ofTokens ["x", "7", "8"]) {} rfl fun _ ↦ rfl
  have hfailing : (machine.afterSteps 0).step.2 = .error (.fault (.inputParseError (some "x"))) :=
    rfl
  have htaking : (machine.afterSteps 1).step.2 = .ok true := ((hexchanges 1 "n? ").2.1 rfl).1
  have htext : (machine.afterSteps 2).registers.acc.text = .ok "7" :=
    (Numeral.text_eq_ok_iff 7 "7").mpr
      ⟨Numeral.lt_bound_of_lt_pow (k := 1) (by decide) (by decide), rfl⟩
  have hplain : Plain program.instructions.toList machine :=
    ⟨rfl, ⟨0, rfl⟩, fun _ ↦ rfl, rfl, rfl⟩
  have hshowing := (plain_afterSteps hplain 2).step_of_output rfl
    (show (machine.afterSteps 2).current? = some (.output "n = ") from rfl) htext
  have hall : machine.exchanges 3 = [.asked "n? ", .asked "n? ", .showed "n = " "7"] := by
    rw [exchanges, hshowing.1]
    rfl
  have hasked : machine.asked 3 = 2 := by
    rw [asked, hall]
    rfl
  have hsession : PerformsAll [.run .unlimited, .step, .step] machine (machine.afterSteps 3) := by
    have hrun : machine.run 1 .unlimited =
        (machine.afterSteps 1, some (.error (.fault (.inputParseError (some "x"))))) := rfl
    exact .cons (.run hrun) (.cons (.step _) (.cons (.step _) (.nil _)))
  have hfound : ∀ i < 3, (machine.afterSteps i).step.2 ≠ .error (.fault (.inputParseError none))
    | 0, _ => by simp [hfailing]
    | 1, _ => by simp [htaking]
    | 2, _ => by simp [hshowing.2]
  have hfront : (TokenReader.ofTokens ["x", "7", "y", "8"]).remaining =
      ["x", "7", "8"].take (machine.asked 3) ++ ["y", "8"] := by
    rw [hasked]
    rfl
  obtain ⟨-, hsame, -, hrest, -⟩ := hshared 3 ["y", "8"] _ rfl hfound hfront
  obtain ⟨left, hlast, -⟩ := hsame 3 (Nat.le_refl 3)
  obtain ⟨hwritten, hremaining⟩ := haccount 3
  refine ⟨machine.afterSteps 3, hsession, ?_, ?_, htaking, ⟨left, hlast⟩, hrest⟩
  · rw [hwritten, hall]
    rfl
  · rw [hremaining, hasked]
    rfl

end Machine

end Accumulator
