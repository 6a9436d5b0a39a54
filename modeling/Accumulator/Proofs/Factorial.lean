import Accumulator.Loading
import Accumulator.Proofs.Numerals
import Accumulator.Proofs.StraightLine
import Mathlib.Data.Nat.Factorial.Basic
import Mathlib.Tactic.Ring

/-!
The factorial program, from its source text to its runs. It multiplies by adding: the inner loop
adds the previous result to the result as often as its counter says (`leadsTo_added`), and the outer
loop counts down from the number that was given (`leadsTo_factorial`). What either does in a round
is a few ways from jump to jump (`leadsTo_row`, `leadsTo_jump`), and induction on the counters joins
the rounds. Below zero the inner loop counts away from its end.
-/

set_option autoImplicit false
set_option relaxedAutoImplicit false

namespace Accumulator.Factorial

open Assembly

/-! ### The program -/

def source : String :=
"// Factorial by repeated addition
//   r[0] result, r[1] n, r[2] constant 1, r[3] inner counter
//   r[4] previous result, r[5] input, r[6] constant 0

        in \"Input a number > 0: \"
        sta 1
        sta 5
        lda 2
        sta 0
outer:
        lda 1
        jz end
        sta 3
        lda 0
        sta 4
        lda 6
        sta 0
inner:
        lda 3
        jz done_mult
        lda 0
        add 4           // result += previous result
        sta 0
        lda 3
        sub 2
        sta 3
        jmp inner
done_mult:
        lda 1
        sub 2
        sta 1
        jmp outer
end:
        lda 0
        out \"The result is: \"
        hlt
"

def instructions : List Instruction :=
  [.input "Input a number > 0: ", .store (.int 1), .store (.int 5), .load (.int 2), .store (.int 0),
    .label "outer", .load (.int 1), .jumpIfZero "end", .store (.int 3), .load (.int 0),
    .store (.int 4), .load (.int 6), .store (.int 0),
    .label "inner", .load (.int 3), .jumpIfZero "done_mult", .load (.int 0), .add (.int 4),
    .store (.int 0), .load (.int 3), .sub (.int 2), .store (.int 3), .jump "inner",
    .label "done_mult", .load (.int 1), .sub (.int 2), .store (.int 1), .jump "outer",
    .label "end", .load (.int 0), .output "The result is: ", .halt]

def program : Program :=
  ⟨instructions.toArray, [("outer", 5), ("inner", 13), ("done_mult", 23), ("end", 28)], rfl,
    by decide, Labels.targets_of_undefined? rfl⟩

theorem inline_spaces (width : Nat) : ∀ c ∈ List.replicate width ' ', isInlineSpace c = true := by
  intro c hc
  rw [List.eq_of_mem_replicate hc]
  rfl

def blank : Trailer := ⟨[], none, by simp, by simp⟩

def remark (gap : Nat) (text : String) (h : '\n' ∉ text.toList) : Trailer where
  gap := List.replicate gap ' '
  remark := some text.toList
  inline := inline_spaces gap
  oneLine := by simpa using h

/-- What stands above the first instruction. -/
def heading : List Trailer :=
  [remark 0 " Factorial by repeated addition" (by decide +kernel),
    remark 0 "   r[0] result, r[1] n, r[2] constant 1, r[3] inner counter" (by decide +kernel),
    remark 0 "   r[4] previous result, r[5] input, r[6] constant 0" (by decide +kernel),
    blank]

/-- How the instruction at an address is laid out in the source. -/
def layout (address : Nat) (i : Instruction) : Layout where
  above := if address = 0 then heading else []
  indent := if i.name?.isSome then [] else List.replicate 8 ' '
  capital _ := false
  behind := if address = 17 then remark 11 " result += previous result" (by decide +kernel)
    else blank
  inline := by
    split
    · simp
    · exact inline_spaces 8

set_option maxRecDepth 10000 in
theorem source_eq : source = String.ofList
    (printed (instructions.zipIdx.map fun (i, address) ↦ (layout address i, i)) [blank]) := by
  refine congrArg String.ofList ?_
  decide +kernel

/-- The operand, if there is one, is an identifier or the number of one of seven registers. -/
def hasPlainOperand : Instruction → Bool
  | .label name | .jump name | .jumpIfZero name | .jumpIfNonNegative name =>
      identifier? name.toList == some (name.toList, [])
  | .add index | .sub index | .store index | .load index =>
      (List.range 7).any fun n ↦ index == .int n
  | .halt | .input _ | .output _ => true

theorem writable_of_hasPlainOperand {i : Instruction} (h : hasPlainOperand i = true) :
    Writable i := by
  have hname (name : String) (h : (identifier? name.toList == some (name.toList, [])) = true) :
      IsIdentifier name.toList :=
    ((identifier?_eq_some_iff _ _ _).mp (beq_iff_eq.mp h)).2.1
  have hindex (index : Value) (h : ((List.range 7).any fun n ↦ index == .int n) = true) :
      ∃ n : Nat, index = .int n ∧ n < Numeral.bound := by
    obtain ⟨n, hmem, hn⟩ := List.any_eq_true.mp h
    have hlt : n < 7 := List.mem_range.mp hmem
    have hshort : n < Nat.pow 10 1 := Nat.lt_of_lt_of_le hlt (by decide)
    exact ⟨n, beq_iff_eq.mp hn, Numeral.lt_bound_of_lt_pow hshort (by decide)⟩
  cases i with
  | label name => exact hname name h
  | jump name => exact hname name h
  | jumpIfZero name => exact hname name h
  | jumpIfNonNegative name => exact hname name h
  | add index => exact hindex index h
  | sub index => exact hindex index h
  | store index => exact hindex index h
  | load index => exact hindex index h
  | _ => trivial

theorem buildProgram_source (name : String) :
    buildProgram [{ name, contents := source }] = .ok program := by
  have hplain : ∀ i ∈ instructions, hasPlainOperand i = true := by decide +kernel
  have hwritable : ∀ s ∈ instructions.zipIdx.map fun (i, address) ↦ (layout address i, i),
      Writable s.2 := by
    intro s hs
    obtain ⟨⟨i, address⟩, hmem, rfl⟩ := List.mem_map.mp hs
    exact writable_of_hasPlainOperand (hplain i (List.fst_mem_of_mem_zipIdx hmem))
  have hassemble := assemble_printed hwritable [blank] name
  rw [← source_eq] at hassemble
  unfold buildProgram
  rw [hassemble]
  rfl

/-! ### States -/

/-- What the accumulator and the registers hold, apart from the two constants. -/
structure Contents where
  acc : Int
  result : Int
  counter : Int
  inner : Int
  previous : Int
  given : Int

def Contents.registers (v : Contents) (pc : Nat) : Registers where
  r := [.int v.result, .int v.counter, .int 1, .int v.inner, .int v.previous, .int v.given, .int 0]
  acc := .int v.acc
  pc := .int pc

/-- The machine once it has its input: at an address, after so many steps. -/
def state (v : Contents) (pc steps : Nat) : Machine where
  program
  registers := v.registers pc
  output := { written := "Input a number > 0: ", writes := 1 }
  steps

variable {v w : Contents} {pc steps : Nat}

/-- From an instruction through a row of others, none of which jumps. -/
theorem leadsTo_row (count : Nat)
    (hlength : ((instructions.drop pc).take count).length = count)
    (hcomputed : (v.registers pc).computedBy? pc ((instructions.drop pc).take count) =
      some (w.registers (pc + count))) :
    (state v pc steps).LeadsTo count (state w (pc + count) (steps + count)) := by
  have hway := @Machine.leadsTo_of_block (state v pc steps) (w.registers (pc + count)) pc _ rfl rfl
    rfl (List.take_prefix count (instructions.drop pc)) hcomputed
  rw [hlength] at hway
  exact hway

theorem leadsTo_jump {target : String} {address : Nat}
    (hjumps : (state v pc steps).jumpsTo? = some target)
    (haddress : program.address target = .ok address) :
    (state v pc steps).LeadsTo 1 (state v address (steps + 1)) :=
  Machine.leadsTo_of_jump rfl rfl hjumps haddress

theorem leadsTo_past_jumpIfZero {target : String}
    (hcurrent : (state v pc steps).current? = some (.jumpIfZero target)) (hne : v.acc ≠ 0) :
    (state v pc steps).LeadsTo 1 (state v (pc + 1) (steps + 1)) :=
  Machine.leadsTo_of_untaken rfl rfl rfl hcurrent rfl (if_neg hne)

/-! ### The inner loop -/

/-- What the inner loop makes of the contents in so many rounds. -/
def Contents.added (v : Contents) (rounds : Nat) : Contents :=
  { v with
    acc := v.inner - rounds
    inner := v.inner - rounds
    result := v.result + rounds * v.previous }

theorem added_zero (hacc : v.acc = v.inner) : v.added 0 = v := by
  rcases v
  simp_all [Contents.added]

theorem leadsTo_inner_round (hacc : v.acc = v.inner) (hne : v.inner ≠ 0) :
    (state v 15 steps).LeadsTo 10 (state (v.added 1) 15 (steps + 10)) := by
  let after : Contents :=
    { v with acc := v.inner - 1, inner := v.inner - 1, result := v.result + v.previous }
  have hafter : v.added 1 = after := by simp [Contents.added, after]
  have hstay : (state v 15 steps).LeadsTo 1 (state v 16 (steps + 1)) :=
    leadsTo_past_jumpIfZero rfl (hacc ▸ hne)
  have hadd : (state v 16 (steps + 1)).LeadsTo 6 (state after 22 (steps + 7)) :=
    leadsTo_row 6 rfl rfl
  have hback : (state after 22 (steps + 7)).LeadsTo 1 (state after 13 (steps + 8)) :=
    leadsTo_jump rfl rfl
  have hload : (state after 13 (steps + 8)).LeadsTo 2 (state after 15 (steps + 10)) :=
    leadsTo_row 2 rfl rfl
  rw [hafter]
  exact hstay.trans (hadd.trans (hback.trans hload))

/-- The inner loop goes on as long as it does not meet a zero. -/
theorem leadsTo_added (rounds : Nat) (hacc : v.acc = v.inner) (hne : ∀ i < rounds, v.inner ≠ i) :
    (state v 15 steps).LeadsTo (10 * rounds) (state (v.added rounds) 15 (steps + 10 * rounds)) := by
  induction rounds with
  | zero =>
    rw [added_zero hacc]
    exact .refl _
  | succ rounds ih =>
    have hbefore := ih fun i hi ↦ hne i (Nat.lt_succ_of_lt hi)
    have hgoing : (v.added rounds).inner ≠ 0 :=
      sub_ne_zero.mpr (hne rounds (Nat.lt_succ_self rounds))
    have hround : (v.added rounds).added 1 = v.added (rounds + 1) := by
      simp only [Contents.added, Contents.mk.injEq]
      push_cast
      refine ⟨by ring, by ring, trivial, by ring, trivial, trivial⟩
    have hlast := @leadsTo_inner_round (v.added rounds) (steps + 10 * rounds) rfl hgoing
    rw [hround] at hlast
    exact hbefore.trans hlast

/-! ### The outer loop -/

/-- What the outer loop makes of the contents in a round. -/
def Contents.multiplied (v : Contents) : Contents :=
  { v with
    acc := v.counter - 1
    counter := v.counter - 1
    inner := 0
    previous := v.result
    result := v.counter * v.result }

/-- The result becomes the previous one, to be added up anew. -/
theorem leadsTo_inner (hne : v.acc ≠ 0) :
    (state v 7 steps).LeadsTo 8
      (state { v with inner := v.acc, previous := v.result, result := 0 } 15 (steps + 8)) := by
  let after : Contents := { v with inner := v.acc, previous := v.result, result := 0 }
  have hstay : (state v 7 steps).LeadsTo 1 (state v 8 (steps + 1)) :=
    leadsTo_past_jumpIfZero rfl hne
  have hcopy : (state v 8 (steps + 1)).LeadsTo 7 (state after 15 (steps + 8)) :=
    leadsTo_row 7 rfl rfl
  exact hstay.trans hcopy

/-- The inner loop is left when its counter is zero. -/
theorem leadsTo_outer (hzero : v.acc = 0) :
    (state v 15 steps).LeadsTo 8
      (state { v with acc := v.counter - 1, counter := v.counter - 1 } 7 (steps + 8)) := by
  let after : Contents := { v with acc := v.counter - 1, counter := v.counter - 1 }
  have hleave : (state v 15 steps).LeadsTo 1 (state v 23 (steps + 1)) :=
    leadsTo_jump (if_pos hzero) rfl
  have hcount : (state v 23 (steps + 1)).LeadsTo 4 (state after 27 (steps + 5)) :=
    leadsTo_row 4 rfl rfl
  have hback : (state after 27 (steps + 5)).LeadsTo 1 (state after 5 (steps + 6)) :=
    leadsTo_jump rfl rfl
  have hload : (state after 5 (steps + 6)).LeadsTo 2 (state after 7 (steps + 8)) :=
    leadsTo_row 2 rfl rfl
  exact hleave.trans (hcount.trans (hback.trans hload))

/-- The outer loop multiplies the result by its counter. -/
theorem leadsTo_multiplied (m : Nat) (hacc : v.acc = m + 1) (hcounter : v.counter = m + 1) :
    (state v 7 steps).LeadsTo (10 * m + 26) (state v.multiplied 7 (steps + (10 * m + 26))) := by
  let middle : Contents := { v with inner := v.acc, previous := v.result, result := 0 }
  have hinner : (state v 7 steps).LeadsTo 8 (state middle 15 (steps + 8)) :=
    leadsTo_inner (by omega)
  -- The inner loop counts down a copy, so that the counter is still there when it is left.
  have hproduct := @leadsTo_added middle (steps + 8) (m + 1) rfl fun i hi ↦ by
    simp only [middle]
    omega
  have hzero : (middle.added (m + 1)).acc = 0 := by
    simp only [Contents.added, middle]
    omega
  have houter := @leadsTo_outer (middle.added (m + 1)) (steps + 8 + 10 * (m + 1)) hzero
  have hmultiplied : { middle.added (m + 1) with acc := v.counter - 1, counter := v.counter - 1 } =
      v.multiplied := by
    simp only [Contents.added, Contents.multiplied, middle, hacc, hcounter, Contents.mk.injEq]
    push_cast
    refine ⟨trivial, by ring, trivial, by ring, trivial, trivial⟩
  have hsteps : steps + 8 + 10 * (m + 1) + 8 = steps + (10 * m + 26) := by omega
  have hcount : 8 + (10 * (m + 1) + 8) = 10 * m + 26 := by omega
  have hway := hinner.trans (hproduct.trans houter)
  rw [hcount, hsteps] at hway
  rw [← hmultiplied]
  exact hway

/-- The outer loop makes a factorial of its counter. -/
theorem leadsTo_factorial (m : Nat) (hacc : v.acc = m) (hcounter : v.counter = m) :
    ∃ w : Contents, w.acc = 0 ∧ w.result = m.factorial * v.result ∧
      (state v 7 steps).LeadsTo (5 * m ^ 2 + 21 * m)
        (state w 7 (steps + (5 * m ^ 2 + 21 * m))) := by
  induction m generalizing v steps with
  | zero => exact ⟨v, hacc, by simp, .refl _⟩
  | succ m ih =>
    have hround := @leadsTo_multiplied v steps m hacc hcounter
    have hless : v.counter - 1 = m := by omega
    obtain ⟨w, hzero, hresult, hothers⟩ :=
      @ih v.multiplied (steps + (10 * m + 26)) hless hless
    have hcount : 10 * m + 26 + (5 * m ^ 2 + 21 * m) = 5 * (m + 1) ^ 2 + 21 * (m + 1) := by ring
    have hway := hround.trans hothers
    rw [Nat.add_assoc steps, hcount] at hway
    refine ⟨w, hzero, ?_, hway⟩
    rw [hresult, Nat.factorial_succ, Contents.multiplied, hcounter]
    push_cast
    ring

/-! ### Whole runs -/

/-- The machine before its first step. -/
def machine (token : String) : Machine :=
  .start program { r := [.int 1, .int 0, .int 1, .int 0, .int 0, .int 0, .int 0] }
    (.ofTokens [token])

section

variable {token : String} {n : Int} (htoken : TokenReader.integer token = .ok n)

include htoken

theorem leadsTo_outer_loop : (machine token).LeadsTo 7 (state ⟨n, 1, n, 0, 0, n⟩ 7 7) := by
  let v : Contents := ⟨n, 1, 0, 0, 0, 0⟩
  have hcurrent : (machine token).current? = some (.input "Input a number > 0: ") := rfl
  have hnext : (machine token).input.nextInteger = (.ok n, {}) :=
    congrArg (fun result ↦ (result, ({} : TokenReader))) htoken
  have hattempt : (machine token).attempt = (state v 0 0, .ok 1) := by
    rw [Machine.attempt_of_current hcurrent, Machine.execute, Machine.readAcc, hnext]
    rfl
  have hread : (machine token).LeadsTo 1 (state v 1 1) :=
    Machine.leadsTo_of_next rfl rfl rfl hattempt
  have hset : (state v 1 1).LeadsTo 6 (state ⟨n, 1, n, 0, 0, n⟩ 7 7) := leadsTo_row 6 rfl rfl
  exact hread.trans hset

/-- From zero on, the loops come to an end, and the factorial is about to be written. -/
theorem leadsTo_output {m : Nat} (hn : n = m) :
    ∃ w : Contents, w.acc = m.factorial ∧ w.result = m.factorial ∧
      (machine token).LeadsTo (5 * m ^ 2 + 21 * m + 10)
        (state w 30 (5 * m ^ 2 + 21 * m + 10)) := by
  obtain ⟨w, hzero, hresult, hloop⟩ :=
    @leadsTo_factorial ⟨n, 1, n, 0, 0, n⟩ 7 m hn hn
  rw [Int.mul_one] at hresult
  have hleave : (state w 7 (7 + (5 * m ^ 2 + 21 * m))).LeadsTo 1
      (state w 28 (7 + (5 * m ^ 2 + 21 * m) + 1)) := leadsTo_jump (if_pos hzero) rfl
  have hload : (state w 28 (7 + (5 * m ^ 2 + 21 * m) + 1)).LeadsTo 2
      (state { w with acc := w.result } 30 (7 + (5 * m ^ 2 + 21 * m) + 3)) :=
    leadsTo_row 2 rfl rfl
  have hway := (leadsTo_outer_loop htoken).trans (hloop.trans (hleave.trans hload))
  have hcount : 7 + (5 * m ^ 2 + 21 * m + (1 + 2)) = 5 * m ^ 2 + 21 * m + 10 := by omega
  have hsteps : 7 + (5 * m ^ 2 + 21 * m) + 3 = 5 * m ^ 2 + 21 * m + 10 := by omega
  rw [hcount, hsteps] at hway
  exact ⟨{ w with acc := w.result }, hresult, hresult, hway⟩

/-- Below zero, every step makes progress. -/
theorem progresses_below (hnegative : n < 0) (k : Nat) : (machine token).Progresses k := by
  have hinner := @leadsTo_inner ⟨n, 1, n, 0, 0, n⟩ 7 (by simp only; omega)
  have hrounds := @leadsTo_added ⟨n, 0, n, n, 1, n⟩ 15 k rfl fun i _ ↦ by
    simp only
    omega
  have hway := (leadsTo_outer_loop htoken).trans (hinner.trans hrounds)
  exact hway.progresses.mono (by omega)

end

/-! ### The last steps -/

/-- The machine at its halt instruction, with the result written. -/
def finished (v : Contents) (text : String) (steps : Nat) : Machine :=
  { state v 31 steps with
    output :=
      { written := "Input a number > 0: " ++ s!"The result is: {text}\n", writes := 2 } }

theorem written_finished (v : Contents) (text : String) (steps : Nat) :
    (finished v text steps).output.written = s!"Input a number > 0: The result is: {text}\n" := by
  have hprompts : "Input a number > 0: The result is: " =
      "Input a number > 0: " ++ "The result is: " := by decide +kernel
  rw [finished, hprompts]
  simp only [toString, String.append_assoc]

theorem leadsTo_finished {text : String} (htext : Numeral.text v.acc = .ok text) :
    (state v 30 steps).LeadsTo 1 (finished v text (steps + 1)) := by
  have hcurrent : (state v 30 steps).current? = some (.output "The result is: ") := rfl
  have hacc : (state v 30 steps).registers.acc.text = .ok text := htext
  have hattempt : (state v 30 steps).attempt =
      ({ state v 30 steps with output := (finished v text steps).output }, .ok 1) := by
    rw [Machine.attempt_of_current hcurrent, Machine.execute, Machine.writeAcc, hacc]
    rfl
  exact Machine.leadsTo_of_next rfl rfl rfl hattempt

theorem step_finished (v : Contents) (text : String) (steps : Nat) :
    ∃ journal, (finished v text steps).step =
      ({ (finished v text steps).moved 0 with journal }, .ok false) := by
  have hcurrent : (finished v text steps).current? = some .halt := rfl
  exact Machine.step_of_attempt_ok rfl rfl (Machine.attempt_of_current hcurrent)

theorem step_output_of_overlong (htext : Numeral.text v.acc = .error .writing) :
    (state v 30 steps).step = (state v 30 steps, .error (.overlong .writing)) := by
  have hcurrent : (state v 30 steps).current? = some (.output "The result is: ") := rfl
  have hacc : (state v 30 steps).registers.acc.text = .error .writing := htext
  have hrunning : (state v 30 steps).halted = false := rfl
  rw [Machine.step_of_running hrunning, Machine.attempt_of_current hcurrent, Machine.execute,
    Machine.writeAcc, hacc]

section

variable {token : String} {n : Int} (htoken : TokenReader.integer token = .ok n)

include htoken

theorem run_of_short {m : Nat} (hn : n = m) (hshort : m.factorial < Numeral.bound) :
    ∃ after, (∀ fuel, 5 * m ^ 2 + 21 * m + 12 ≤ fuel →
        (machine token).run fuel .unlimited = (after, some (.ok (5 * m ^ 2 + 21 * m + 12)))) ∧
      after.halted = true ∧ after.registers.r[0]? = some (.int m.factorial) ∧
      after.output.written = s!"Input a number > 0: The result is: {m.factorial}\n" := by
  obtain ⟨w, hacc, hresult, hway⟩ := leadsTo_output htoken hn
  have htext : Numeral.text w.acc = .ok (toString m.factorial) := by
    rw [hacc]
    exact (Numeral.text_eq_ok_iff _ _).mpr ⟨hshort, rfl⟩
  have hwritten := hway.trans (leadsTo_finished htext)
  obtain ⟨journal, hhalt⟩ :=
    step_finished w (toString m.factorial) (5 * m ^ 2 + 21 * m + 10 + 1)
  refine ⟨_, fun fuel hfuel ↦ hwritten.run_of_stop rfl hhalt (by simp) hfuel, rfl, ?_, ?_⟩
  · rw [← hresult]
    rfl
  · exact written_finished w (toString m.factorial) (5 * m ^ 2 + 21 * m + 10 + 1)

theorem run_of_overlong {m : Nat} (hn : n = m) (hlong : Numeral.bound ≤ m.factorial) :
    ∃ after, (∀ fuel, 5 * m ^ 2 + 21 * m + 11 ≤ fuel →
        (machine token).run fuel .unlimited = (after, some (.error (.overlong .writing)))) ∧
      after.current? = some (.output "The result is: ") ∧
      after.steps = 5 * m ^ 2 + 21 * m + 10 ∧
      after.registers.r[0]? = some (.int m.factorial) ∧
      after.registers.acc = .int m.factorial ∧
      after.output.written = "Input a number > 0: " := by
  obtain ⟨w, hacc, hresult, hway⟩ := leadsTo_output htoken hn
  have htext : Numeral.text w.acc = .error .writing := by
    rw [hacc]
    exact (Numeral.text_eq_error_iff _ _).mpr ⟨hlong, rfl⟩
  have hstop := @step_output_of_overlong w (5 * m ^ 2 + 21 * m + 10) htext
  refine ⟨_, fun fuel hfuel ↦ hway.run_of_stop rfl hstop (by simp) hfuel, rfl, rfl, ?_, ?_, rfl⟩
  · rw [← hresult]
    rfl
  · rw [← hacc]
    rfl

end

/-- The factorial program assembles, whatever it is called, and is right for every integer that can
be given to it. From zero on it halts after `5 n ^ 2 + 21 n + 12` steps and has written the
factorial, or fails to write it if that has too many digits. Below zero it runs for ever, without a
fault. -/
theorem factorial_program_is_correct (name : String) (n : Int) (hn : n.natAbs < Numeral.bound) :
    buildProgram [{ name, contents := source }] = .ok program ∧
      (∀ m : Nat, n = m → m.factorial < Numeral.bound →
        ∃ after, (∀ fuel, 5 * m ^ 2 + 21 * m + 12 ≤ fuel →
            (machine (toString n)).run fuel .unlimited =
              (after, some (.ok (5 * m ^ 2 + 21 * m + 12)))) ∧
          after.halted = true ∧ after.registers.r[0]? = some (.int m.factorial) ∧
          after.output.written = s!"Input a number > 0: The result is: {m.factorial}\n") ∧
      (∀ m : Nat, n = m → Numeral.bound ≤ m.factorial →
        ∃ after, (∀ fuel, 5 * m ^ 2 + 21 * m + 11 ≤ fuel →
            (machine (toString n)).run fuel .unlimited =
              (after, some (.error (.overlong .writing)))) ∧
          after.current? = some (.output "The result is: ") ∧
          after.steps = 5 * m ^ 2 + 21 * m + 10 ∧
          after.registers.r[0]? = some (.int m.factorial) ∧
          after.registers.acc = .int m.factorial ∧
          after.output.written = "Input a number > 0: ") ∧
      (n < 0 → (∀ k, (machine (toString n)).Progresses k) ∧
        ∀ limit : Int, 1 ≤ limit → limit.natAbs < Numeral.bound → ∀ fuel : Nat, limit ≤ fuel →
          ((machine (toString n)).run fuel (Budget.upTo limit)).2 =
            some (.error (.fault (.stepLimitExceeded (.integer (.int limit)))))) := by
  have htoken := TokenReader.integer_toString hn
  refine ⟨buildProgram_source name, fun m hm hshort ↦ run_of_short htoken hm hshort,
    fun m hm hlong ↦ run_of_overlong htoken hm hlong, fun hnegative ↦ ?_⟩
  have hprogress := progresses_below htoken hnegative
  refine ⟨hprogress, fun limit hpositive hbound fuel hfuel ↦ ?_⟩
  have hallowance : Budget.allowance limit ≤ fuel := by
    unfold Budget.allowance
    omega
  rw [Machine.run_of_limit (hprogress _) hallowance, Budget.limitFailure_of_short hbound]

/-- The factorial of three takes 120 steps; that of minus one takes more than seven. -/
theorem factorial_of_three_and_of_minus_one :
    (∃ after, (machine "3").run 120 .unlimited = (after, some (.ok 120)) ∧
      after.output.written = "Input a number > 0: The result is: 6\n") ∧
    ((machine "-1").run 7 (Budget.upTo 7)).2 =
      some (.error (.fault (.stepLimitExceeded (.integer (.int 7))))) := by
  have hshort {k : Nat} (h : k < Nat.pow 10 1) : k < Numeral.bound :=
    Numeral.lt_bound_of_lt_pow h (by decide)
  constructor
  · obtain ⟨-, hruns, -⟩ := factorial_program_is_correct "factorial" 3 (hshort (by decide))
    obtain ⟨after, hrun, -, -, hwritten⟩ := hruns 3 rfl (hshort (by decide))
    exact ⟨after, hrun 120 (by decide), hwritten⟩
  · obtain ⟨-, -, -, hbelow⟩ :=
      factorial_program_is_correct "factorial" (-1) (hshort (by decide))
    exact (hbelow (by decide)).2 7 (by decide) (hshort (by decide)) 7 (by decide)

end Accumulator.Factorial
