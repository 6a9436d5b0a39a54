import Accumulator.Proofs.Relocation
import Accumulator.Proofs.Runs

/-!
Following a program. Steps that make progress lead from one state to another (`LeadsTo`), and such
ways can be joined. A jump is a way of one step, and so is an instruction that computes on the
registers; rows of these, one behind the other, come to one computation on the registers
(`leadsTo_of_block`).
-/

set_option autoImplicit false
set_option relaxedAutoImplicit false

namespace Accumulator

namespace Registers

/-- The registers with a new accumulator, made of the old one and of a register's value. -/
def accumulated? (registers : Registers) (index : Value) (combine : Value → Value → Value) :
    Option Registers :=
  (registers.load index).toOption.map fun value ↦
    { registers with acc := combine registers.acc value }

/-- What an instruction makes of the registers if it does nothing but compute on them and go on. -/
def computed? (registers : Registers) : Instruction → Option Registers
  | .label _ => some registers
  | .add index => registers.accumulated? index fun acc value ↦ .int (acc.toInt + value.toInt)
  | .sub index => registers.accumulated? index fun acc value ↦ .int (acc.toInt - value.toInt)
  | .load index => registers.accumulated? index fun _ value ↦ value
  | .store index => (registers.store index registers.acc).toOption
  | _ => none

/-- The registers with the program counter at an address. -/
def atAddress (registers : Registers) (pc : Nat) : Registers := { registers with pc := .int pc }

/-- What a row of such instructions makes of the registers, given the address of the first. -/
def computedBy? : Registers → Nat → List Instruction → Option Registers
  | registers, pc, [] => some (registers.atAddress pc)
  | registers, pc, i :: block => do
      (← (registers.atAddress pc).computed? i).computedBy? (pc + 1) block

@[simp] theorem computedBy?_atAddress (registers : Registers) (pc : Nat)
    (block : List Instruction) :
    (registers.atAddress pc).computedBy? pc block = registers.computedBy? pc block := by
  cases block <;> rfl

end Registers

namespace Machine

variable {machine middle after : Machine} {instruction : Instruction} {registers : Registers}
  {m n pc : Nat}

/-! ### Ways -/

/-- So many steps, all of which make progress, lead from the machine to the other. -/
structure LeadsTo (machine : Machine) (n : Nat) (after : Machine) : Prop where
  progresses : machine.Progresses n
  reaches : machine.afterSteps n = after

theorem LeadsTo.refl (machine : Machine) : machine.LeadsTo 0 machine :=
  ⟨fun i hi ↦ absurd hi (Nat.not_lt_zero i), rfl⟩

theorem LeadsTo.of_step (h : machine.step = (after, .ok true)) : machine.LeadsTo 1 after := by
  refine ⟨fun i hi ↦ ?_, congrArg Prod.fst h⟩
  rw [Nat.lt_one_iff.mp hi]
  exact congrArg Prod.snd h

theorem LeadsTo.trans (hfirst : machine.LeadsTo m middle) (hsecond : middle.LeadsTo n after) :
    machine.LeadsTo (m + n) after := by
  refine ⟨fun i hi ↦ ?_, ?_⟩
  · by_cases hbefore : i < m
    · exact hfirst.progresses i hbefore
    · obtain ⟨k, rfl⟩ := Nat.exists_eq_add_of_le (Nat.not_lt.mp hbefore)
      rw [afterSteps_add, hfirst.reaches]
      exact hsecond.progresses k (by omega)
  · rw [afterSteps_add, hfirst.reaches, hsecond.reaches]

/-- A run gets as far as its first step without progress. -/
theorem LeadsTo.run_of_stop {result : Except Failure Bool} (h : machine.LeadsTo n middle)
    (hrunning : machine.halted = false) (hstop : middle.step = (after, result))
    (hresult : result ≠ .ok true) {fuel : Nat} (hfuel : n < fuel) :
    machine.run fuel .unlimited = (after, some (result.map fun _ ↦ n + 1)) := by
  have hlast : (machine.afterSteps n).step = (after, result) := by rw [h.reaches, hstop]
  have hrun := @Machine.run_of_stop machine n none fuel hrunning h.progresses (by simp)
    (by rwa [hlast]) hfuel
  rw [afterSteps, hlast] at hrun
  exact hrun

/-! ### Single steps -/

/-- The machine some steps further on, with other registers. -/
def further (machine : Machine) (registers : Registers) (count : Nat) : Machine :=
  { machine with registers, steps := machine.steps + count }

theorem leadsTo_of_jump {target : String} {address : Nat} (hrunning : machine.halted = false)
    (huntraced : machine.trace = none) (hjumps : machine.jumpsTo? = some target)
    (haddress : machine.program.address target = .ok address) :
    machine.LeadsTo 1 (machine.further (machine.registers.atAddress address) 1) := by
  obtain ⟨found, hfound, hattempt, -, hne⟩ := exists_address_of_jumpsTo hjumps
  obtain rfl : address = found := Except.ok.inj (haddress.symm.trans hfound)
  have hmoves : (address : Int) - machine.registers.pc.toInt ≠ 0 := by omega
  have hcovers : machine.registers.pc.toInt + (address - machine.registers.pc.toInt) = address := by
    omega
  have hstep := step_of_displacement hrunning huntraced hattempt hmoves
  rw [hcovers] at hstep
  exact .of_step hstep

theorem leadsTo_of_next (hrunning : machine.halted = false) (huntraced : machine.trace = none)
    (hpc : machine.registers.pc = .int pc) (hattempt : machine.attempt = (after, .ok 1)) :
    machine.LeadsTo 1 (after.further (after.registers.atAddress (pc + 1)) 1) := by
  have hframe := machine.frame_attempt
  rw [hattempt] at hframe
  have hstep := step_of_displacement hrunning huntraced hattempt Int.one_ne_zero
  rw [hframe.pc, hpc] at hstep
  exact .of_step hstep

/-- A jump that is not taken. -/
theorem leadsTo_of_untaken {target : String} (hrunning : machine.halted = false)
    (huntraced : machine.trace = none) (hpc : machine.registers.pc = .int pc)
    (hcurrent : machine.current? = some instruction) (htarget : instruction.target? = some target)
    (hstays : instruction.taken? machine.registers.acc = none) :
    machine.LeadsTo 1 (machine.further (machine.registers.atAddress (pc + 1)) 1) :=
  leadsTo_of_next hrunning huntraced hpc
    ((attempt_of_current hcurrent).trans (execute_of_untaken htarget hstays))

/-! ### Rows of instructions -/

theorem accumulate_of_accumulated {index : Value} {combine : Value → Value → Value}
    (h : machine.registers.accumulated? index combine = some registers) :
    machine.accumulate index combine = ({ machine with registers }, .ok 1) := by
  obtain ⟨value, hvalue, rfl⟩ := Option.map_eq_some_iff.mp h
  unfold accumulate
  cases hload : machine.registers.load index with
  | error fault =>
    rw [hload] at hvalue
    contradiction
  | ok loaded =>
    rw [hload] at hvalue
    cases hvalue
    rfl

theorem execute_of_computed (h : machine.registers.computed? instruction = some registers) :
    machine.execute instruction = ({ machine with registers }, .ok 1) := by
  cases instruction with
  | label name =>
    cases h
    rfl
  | add index =>
    rw [Registers.computed?] at h
    exact accumulate_of_accumulated h
  | sub index =>
    rw [Registers.computed?] at h
    exact accumulate_of_accumulated h
  | load index =>
    rw [Registers.computed?] at h
    exact accumulate_of_accumulated h
  | store index =>
    rw [Registers.computed?] at h
    simp only [execute, storeAcc]
    cases hstore : machine.registers.store index machine.registers.acc with
    | error fault =>
      rw [hstore] at h
      contradiction
    | ok stored =>
      rw [hstore] at h
      cases h
      rfl
  | _ => contradiction

/-- A row of instructions that stands in the program is one way, as long as the row. -/
theorem leadsTo_of_block {block : List Instruction} (hrunning : machine.halted = false)
    (huntraced : machine.trace = none) (hpc : machine.registers.pc = .int pc)
    (hblock : block <+: machine.program.instructions.toList.drop pc)
    (hcomputed : machine.registers.computedBy? pc block = some registers) :
    machine.LeadsTo block.length (machine.further registers block.length) := by
  induction block generalizing machine pc with
  | nil =>
    have hsame : machine.further registers 0 = machine := by
      cases hcomputed
      unfold further Registers.atAddress
      rw [← hpc]
      rfl
    rw [List.length_nil, hsame]
    exact .refl machine
  | cons i block ih =>
    obtain ⟨rest, hrest⟩ := hblock
    have hat : machine.program.instructions[pc]? = some i := by
      have hhead := congrArg (·[0]?) hrest
      simpa using hhead.symm
    have hcurrent : machine.current? = some i :=
      (current?_eq_some_iff _ _).mpr ⟨pc, by rw [hpc, Value.toInt_int], hat⟩
    have hsame : machine.registers.atAddress pc = machine.registers := by
      rw [Registers.atAddress, ← hpc]
    rw [Registers.computedBy?, hsame] at hcomputed
    obtain ⟨next, hnext, hothers⟩ := Option.bind_eq_some_iff.mp hcomputed
    have hfirst : machine.LeadsTo 1 (machine.further (next.atAddress (pc + 1)) 1) :=
      leadsTo_of_next hrunning huntraced hpc
        ((attempt_of_current hcurrent).trans (execute_of_computed hnext))
    have hbehind : block <+: machine.program.instructions.toList.drop (pc + 1) := by
      refine ⟨rest, ?_⟩
      rw [← List.drop_drop, ← hrest]
      rfl
    rw [← Registers.computedBy?_atAddress] at hothers
    -- The rest of the row starts at the next address, from the registers that the first has left.
    have hothers' := @ih (machine.further (next.atAddress (pc + 1)) 1) (pc + 1) hrunning huntraced
      rfl hbehind hothers
    have hway := hfirst.trans hothers'
    rw [Nat.add_comm] at hway
    have hsteps : (machine.further (next.atAddress (pc + 1)) 1).further registers block.length =
        machine.further registers (i :: block).length := by
      simp only [further, List.length_cons, Nat.add_assoc, Nat.add_comm 1]
    rw [← hsteps]
    exact hway

end Machine

end Accumulator
