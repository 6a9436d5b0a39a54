import Accumulator.Proofs.Halting

/-!
Runs against their steps. A run is over with the first of its steps that halts, fails or uses up the
budget, and then is what that step left (`runFrom_eq_some_iff`). So a limit of `limit` steps lets
`allowance limit` of them pass, a run that was cut off goes on as if it had not been
(`run_resumed`), and a limit that was not reached may be raised (`runFrom_of_raised`).
-/

set_option autoImplicit false
set_option relaxedAutoImplicit false

namespace Accumulator

/-! ### Limits -/

namespace Budget

/-- The budget of a limit that is a whole number. -/
def upTo (limit : Int) : Budget := .limited (.integer (.int limit))

/-- The budget of a limit, if there is one. -/
def ofLimit? : Option Int → Budget
  | none => .unlimited
  | some limit => upTo limit

/-- How many steps there may be under a limit. One is always taken. -/
def allowance (limit : Int) : Nat := (max limit 1).toNat

/-- How a run fails that reaches its limit. -/
def limitFailure (limit : Int) : Failure := .ofFault (.stepLimitExceeded (.integer (.int limit)))

theorem limitFailure_of_short {limit : Int} (hshort : limit.natAbs < Numeral.bound) :
    limitFailure limit = .fault (.stepLimitExceeded (.integer (.int limit))) := by
  have htext : Numeral.text limit = .ok (toString limit) :=
    (Numeral.text_eq_ok_iff _ _).mpr ⟨hshort, rfl⟩
  refine (Failure.ofFault_eq_fault_iff _ _).mpr ⟨rfl, ?_⟩
  simp only [Fault.message, Limit.text, Value.text, htext]
  exact ⟨_, rfl⟩

theorem failure?_upTo (limit : Int) (taken : Nat) :
    (upTo limit).failure? taken = if limit ≤ taken then some (limitFailure limit) else none := by
  simp only [upTo, failure?, Limit.reachedBy_integer, Value.toInt_int, limitFailure]

theorem le_of_failure?_upTo {limit : Int} {taken : Nat} {failure : Failure}
    (h : (upTo limit).failure? taken = some failure) : limit ≤ taken := by
  rw [failure?_upTo] at h
  by_cases hle : limit ≤ taken
  · exact hle
  · rw [if_neg hle] at h
    cases h

theorem lt_of_failure?_upTo {limit : Int} {taken : Nat} (h : (upTo limit).failure? taken = none) :
    taken < limit := by
  rw [failure?_upTo] at h
  by_cases hle : limit ≤ taken
  · rw [if_pos hle] at h
    cases h
  · exact Int.not_le.mp hle

/-- A limit is silent until the allowance is used up. -/
theorem failure?_of_lt_allowance {limit? : Option Int} {taken : Nat} (hpositive : 0 < taken)
    (hwithin : ∀ limit ∈ limit?, taken < allowance limit) :
    (ofLimit? limit?).failure? taken = none := by
  cases limit? with
  | none => rfl
  | some limit =>
    have hlt := hwithin limit rfl
    unfold allowance at hlt
    rw [ofLimit?, failure?_upTo, if_neg (by omega)]

theorem failure?_allowance (limit : Int) :
    (upTo limit).failure? (allowance limit) = some (limitFailure limit) := by
  unfold allowance
  rw [failure?_upTo, if_pos (by omega)]

end Budget

namespace Machine

open Budget (upTo ofLimit? allowance limitFailure)

variable {machine after : Machine} {budget : Budget} {begun n : Nat}
  {result : Except Failure Nat}

/-! ### Steps that make progress -/

/-- The next `n` steps all move the program counter. -/
def Progresses (machine : Machine) (n : Nat) : Prop :=
  ∀ i < n, (machine.afterSteps i).step.2 = .ok true

theorem Progresses.mono {m : Nat} (h : machine.Progresses n) (hle : m ≤ n) :
    machine.Progresses m := fun i hi ↦ h i (Nat.lt_of_lt_of_le hi hle)

/-- A step that does not fail is counted, unless the machine had halted, and tells whether it halts
the machine. -/
theorem step_of_ok {progressed : Bool} (hrunning : machine.halted = false)
    (hstep : machine.step.2 = .ok progressed) :
    machine.step.1.steps = machine.steps + 1 ∧ machine.step.1.halted = !progressed := by
  have hframe := machine.frame_attempt
  rcases machine.step_cases with ⟨hhalted, -⟩ | ⟨between, failure, -, -, hcase⟩ |
    ⟨between, displacement, -, hattempt, hcase⟩
  · rw [hrunning] at hhalted
    contradiction
  · rw [hcase] at hstep
    contradiction
  · rw [hattempt] at hframe
    rw [hcase] at hstep ⊢
    exact ⟨by rw [commit_steps, hframe.steps], halted_of_commit hstep⟩

theorem running_of_progress (hstep : machine.step.2 = .ok true) : machine.halted = false := by
  cases hhalted : machine.halted with
  | false => rfl
  | true =>
    rw [step_of_halted hhalted] at hstep
    exact absurd (Except.ok.inj hstep) Bool.false_ne_true

/-- Each step that makes progress is counted, and leaves the machine running. -/
theorem Progresses.counted (hrunning : machine.halted = false) (h : machine.Progresses n) :
    (machine.afterSteps n).steps = machine.steps + n ∧ (machine.afterSteps n).halted = false := by
  induction n with
  | zero => exact ⟨rfl, hrunning⟩
  | succ n ih =>
    obtain ⟨hsteps, hstill⟩ := ih (h.mono (Nat.le_succ n))
    obtain ⟨hcounted, hhalted⟩ := step_of_ok hstill (h n (Nat.lt_succ_self n))
    exact ⟨by rw [afterSteps, hcounted, hsteps, Nat.add_assoc], hhalted⟩

theorem Progresses.taken (hrunning : machine.halted = false) (h : machine.Progresses n) :
    (machine.afterSteps n).steps - machine.steps = n := by
  rw [(h.counted hrunning).1, Nat.add_sub_cancel_left]

/-! ### How a run ends -/

/-- How a run that began when `begun` steps were done stands after its step number `i + 1`. -/
def verdictAt (budget : Budget) (begun : Nat) (machine : Machine) (i : Nat) :
    Option (Except Failure Nat) :=
  verdict budget ((machine.afterSteps (i + 1)).steps - begun) (machine.afterSteps i).step.2

theorem verdictAt_succ (machine : Machine) (i : Nat) :
    verdictAt budget begun machine (i + 1) = verdictAt budget begun machine.step.1 i := by
  unfold verdictAt
  rw [afterSteps_succ, afterSteps_succ machine i]

theorem verdict_eq_none_iff (taken : Nat) (progress : Except Failure Bool) :
    verdict budget taken progress = none ↔
      progress = .ok true ∧ budget.failure? taken = none := by
  rcases progress with failure | _ | _ <;> simp [verdict]

theorem verdict_eq_ok_iff (taken ended : Nat) (progress : Except Failure Bool) :
    verdict budget taken progress = some (.ok ended) ↔ progress = .ok false ∧ ended = taken := by
  rcases progress with failure | _ | _
  · simp [verdict]
  · simp [verdict, eq_comm]
  · simp [verdict]

theorem verdict_eq_error_iff (taken : Nat) (progress : Except Failure Bool) (failure : Failure) :
    verdict budget taken progress = some (.error failure) ↔
      progress = .error failure ∨ (progress = .ok true ∧ budget.failure? taken = some failure) := by
  rcases progress with cause | _ | _ <;> simp [verdict]

theorem progresses_of_going (hgoing : ∀ i < n, verdictAt budget begun machine i = none) :
    machine.Progresses n :=
  fun i hi ↦ ((verdict_eq_none_iff _ _).mp (hgoing i hi)).1

/-- While no step has ended a run, the run is where its steps have led. -/
theorem runFrom_add (machine : Machine) (n fuel : Nat)
    (hgoing : ∀ i < n, verdictAt budget begun machine i = none) :
    runFrom budget begun (n + fuel) machine = runFrom budget begun fuel (machine.afterSteps n) := by
  induction n generalizing machine with
  | zero => rw [Nat.zero_add, afterSteps]
  | succ n ih =>
    have hfirst : verdict budget (machine.step.1.steps - begun) machine.step.2 = none :=
      hgoing 0 (Nat.succ_pos n)
    rw [Nat.succ_add, runFrom_succ, hfirst, afterSteps_succ]
    refine ih machine.step.1 fun i hi ↦ ?_
    rw [← verdictAt_succ]
    exact hgoing (i + 1) (Nat.succ_lt_succ hi)

/-- A run is over with the first step that ends it. -/
theorem runFrom_eq_some_iff (fuel : Nat) (machine : Machine) :
    runFrom budget begun fuel machine = (after, some result) ↔
      ∃ n < fuel, (∀ i < n, verdictAt budget begun machine i = none) ∧
        verdictAt budget begun machine n = some result ∧ after = machine.afterSteps (n + 1) := by
  constructor
  · intro hrun
    induction fuel generalizing machine with
    | zero => cases hrun
    | succ fuel ih =>
      rw [runFrom_succ] at hrun
      cases hverdict : verdict budget (machine.step.1.steps - begun) machine.step.2 with
      | some ended =>
        rw [hverdict] at hrun
        cases hrun
        exact ⟨0, Nat.succ_pos fuel, fun i hi ↦ absurd hi (Nat.not_lt_zero i), hverdict, rfl⟩
      | none =>
        rw [hverdict] at hrun
        obtain ⟨n, hn, hgoing, hended, rfl⟩ := ih machine.step.1 hrun
        refine ⟨n + 1, Nat.succ_lt_succ hn, ?_, ?_, ?_⟩
        · intro i hi
          cases i with
          | zero => exact hverdict
          | succ i =>
            rw [verdictAt_succ]
            exact hgoing i (Nat.lt_of_succ_lt_succ hi)
        · rw [verdictAt_succ, hended]
        · rw [← afterSteps_succ]
  · rintro ⟨n, hn, hgoing, hended, rfl⟩
    obtain ⟨extra, rfl⟩ := Nat.exists_eq_add_of_lt hn
    have hlast : verdict budget ((machine.afterSteps n).step.1.steps - begun)
        (machine.afterSteps n).step.2 = some result := hended
    rw [Nat.add_assoc, runFrom_add machine n (extra + 1) hgoing, runFrom_succ, hlast]
    rfl

/-- A run that meets a step without progress before its allowance is used up ends with it. -/
theorem run_of_stop {limit? : Option Int} {fuel : Nat} (hrunning : machine.halted = false)
    (hprogress : machine.Progresses n) (hwithin : ∀ limit ∈ limit?, n < allowance limit)
    (hstop : (machine.afterSteps n).step.2 ≠ .ok true) (hfuel : n < fuel) :
    machine.run fuel (ofLimit? limit?) =
      (machine.afterSteps (n + 1),
        some ((machine.afterSteps n).step.2.map fun _ ↦ n + 1)) := by
  refine (runFrom_eq_some_iff fuel machine).mpr ⟨n, hfuel, ?_, ?_, rfl⟩
  · intro i hi
    refine (verdict_eq_none_iff _ _).mpr ⟨hprogress i hi, ?_⟩
    rw [(hprogress.mono hi).taken hrunning]
    exact Budget.failure?_of_lt_allowance (Nat.succ_pos i) fun limit hlimit ↦
      Nat.lt_of_le_of_lt hi (hwithin limit hlimit)
  · obtain ⟨hsteps, hstill⟩ := hprogress.counted hrunning
    unfold verdictAt
    cases hresult : (machine.afterSteps n).step.2 with
    | error failure => rfl
    | ok progressed =>
      cases progressed with
      | true => exact absurd hresult hstop
      | false =>
        have hcounted := (step_of_ok hstill hresult).1
        rw [afterSteps, hcounted, hsteps, Nat.add_assoc, Nat.add_sub_cancel_left]
        rfl

/-- A run all of whose steps make progress until the allowance is used up fails then. -/
theorem run_of_limit {limit : Int} {fuel : Nat} (hprogress : machine.Progresses (allowance limit))
    (hfuel : allowance limit ≤ fuel) :
    machine.run fuel (upTo limit) =
      (machine.afterSteps (allowance limit), some (.error (limitFailure limit))) := by
  obtain ⟨n, hn⟩ : ∃ n, allowance limit = n + 1 :=
    Nat.exists_eq_succ_of_ne_zero (by unfold allowance; omega)
  have hfull := Budget.failure?_allowance limit
  rw [hn] at hprogress hfuel hfull ⊢
  have hrunning : machine.halted = false := running_of_progress (hprogress 0 (Nat.succ_pos n))
  refine (runFrom_eq_some_iff fuel machine).mpr ⟨n, hfuel, ?_, ?_, rfl⟩
  · intro i hi
    refine (verdict_eq_none_iff _ _).mpr ⟨hprogress i (Nat.lt_succ_of_lt hi), ?_⟩
    rw [(hprogress.mono (Nat.le_succ_of_le hi)).taken hrunning]
    have hsilent : (ofLimit? (some limit)).failure? (i + 1) = none := by
      refine Budget.failure?_of_lt_allowance (Nat.succ_pos i) ?_
      intro _ hlimit
      cases hlimit
      omega
    exact hsilent
  · refine (verdict_eq_error_iff _ _ _).mpr (Or.inr ⟨hprogress n (Nat.lt_succ_self n), ?_⟩)
    rw [hprogress.taken hrunning, hfull]

/-- A run that ends without a failure ends at a halt instruction, and the budget did not stop it
before. -/
theorem run_of_ok {taken fuel : Nat} (hrunning : machine.halted = false)
    (hrun : machine.run fuel budget = (after, some (.ok taken))) :
    after.halted = true ∧ after.current? = some .halt ∧ 0 < taken ∧
      after.steps = machine.steps + taken ∧
      ∀ earlier, 0 < earlier → earlier < taken → budget.failure? earlier = none := by
  obtain ⟨n, -, hgoing, hended, rfl⟩ := (runFrom_eq_some_iff fuel machine).mp hrun
  have hprogress := progresses_of_going hgoing
  obtain ⟨hsteps, hstill⟩ := hprogress.counted hrunning
  obtain ⟨hstop, htaken⟩ := (verdict_eq_ok_iff _ _ _).mp hended
  obtain ⟨hcounted, hhalted⟩ := step_of_ok hstill hstop
  have hlast : taken = n + 1 := by
    rw [htaken, afterSteps, hcounted, hsteps]
    omega
  refine ⟨hhalted, current?_of_halting_step hstill hhalted, ?_, ?_, ?_⟩
  · omega
  · rw [afterSteps, hcounted, hsteps, hlast, Nat.add_assoc]
  · intro earlier hpositive hlt
    obtain ⟨i, rfl⟩ := Nat.exists_eq_succ_of_ne_zero (Nat.ne_of_gt hpositive)
    have hi : i < n := by omega
    have hsilent := ((verdict_eq_none_iff _ _).mp (hgoing i hi)).2
    rw [(hprogress.mono hi).taken hrunning] at hsilent
    exact hsilent

/-! ### Runs that are cut off and resumed -/

/-- No step fails as a run does that reaches its limit. -/
theorem step_ne_limitFailure {limit : Int} (hshort : limit.natAbs < Numeral.bound) :
    machine.step.2 ≠ .error (limitFailure limit) := by
  intro hstep
  rw [Budget.limitFailure_of_short hshort] at hstep
  clear hshort
  rcases step_failure hstep with ⟨-, -, hfailure⟩ | hfailure | hfailure
  · have heq := ((Failure.ofFault_eq_fault_iff _ _).mp hfailure.symm).1
    contradiction
  · rcases hfailure.fault with ⟨index, size, heq⟩ | ⟨token, heq⟩ <;> contradiction
  · contradiction

/-- The result of a run that was cut off after `first` steps and then resumed for at most `second`,
had it not been cut off. -/
def resumed (first second : Nat) : Except Failure Nat → Except Failure Nat
  | .ok taken => .ok (taken + first)
  | .error failure =>
      .error (if failure = limitFailure second then limitFailure (first + second) else failure)

theorem verdict_resumed {first second : Nat} (hshort : second < Numeral.bound)
    (hstarted : begun + first ≤ machine.step.1.steps) :
    verdict (upTo (first + second)) (machine.step.1.steps - begun) machine.step.2 =
      (verdict (upTo second) (machine.step.1.steps - (begun + first)) machine.step.2).map
        (resumed first second) := by
  cases hstep : machine.step.2 with
  | error failure =>
    have hother : failure ≠ limitFailure second := by
      intro hsame
      rw [hsame] at hstep
      rw [← Int.natAbs_natCast second] at hshort
      exact step_ne_limitFailure hshort hstep
    simp only [verdict, Option.map_some, resumed, if_neg hother]
  | ok progressed =>
    cases progressed with
    | false =>
      have htaken : machine.step.1.steps - begun =
          machine.step.1.steps - (begun + first) + first := by omega
      simp only [verdict, Option.map_some, resumed, htaken]
    | true =>
      have hreached : ((first : Int) + second ≤ (machine.step.1.steps - begun : Nat)) ↔
          ((second : Int) ≤ (machine.step.1.steps - (begun + first) : Nat)) := by omega
      simp only [verdict, Budget.failure?_upTo, hreached]
      split
      · simp only [Option.map_some, resumed, if_true]
      · rfl

theorem runFrom_resumed {first second : Nat} (hshort : second < Numeral.bound) (fuel : Nat)
    (hstarted : begun + first ≤ machine.steps) :
    runFrom (upTo (first + second)) begun fuel machine =
      ((runFrom (upTo second) (begun + first) fuel machine).1,
        (runFrom (upTo second) (begun + first) fuel machine).2.map (resumed first second)) := by
  induction fuel generalizing machine with
  | zero => rfl
  | succ fuel ih =>
    have hlater : begun + first ≤ machine.step.1.steps :=
      Nat.le_trans hstarted machine.steps_le_step
    rw [runFrom_succ, runFrom_succ, verdict_resumed hshort hlater]
    cases verdict (upTo second) (machine.step.1.steps - (begun + first)) machine.step.2 with
    | none => exact ih hlater
    | some ended => rfl

/-- A run that reached its limit made progress to the end of its allowance. -/
theorem progresses_of_cut {limit : Int} {fuel : Nat} (hshort : limit.natAbs < Numeral.bound)
    (hcut : machine.run fuel (upTo limit) = (after, some (.error (limitFailure limit)))) :
    machine.Progresses (allowance limit) ∧ after = machine.afterSteps (allowance limit) := by
  obtain ⟨n, -, hgoing, hended, rfl⟩ := (runFrom_eq_some_iff fuel machine).mp hcut
  obtain ⟨hlast, hlimit⟩ : (machine.afterSteps n).step.2 = .ok true ∧
      (upTo limit).failure? ((machine.afterSteps (n + 1)).steps - machine.steps) =
        some (limitFailure limit) := by
    rcases (verdict_eq_error_iff _ _ _).mp hended with hfailure | hreached
    · exact absurd hfailure (step_ne_limitFailure hshort)
    · exact hreached
  have hprogress : machine.Progresses (n + 1) := by
    intro i hi
    rcases Nat.lt_succ_iff_lt_or_eq.mp hi with hbefore | rfl
    · exact progresses_of_going hgoing i hbefore
    · exact hlast
  have hrunning : machine.halted = false := running_of_progress (hprogress 0 (Nat.succ_pos n))
  have hreached : limit ≤ (n + 1 : Nat) := by
    rw [hprogress.taken hrunning] at hlimit
    exact Budget.le_of_failure?_upTo hlimit
  have hallowance : allowance limit = n + 1 := by
    unfold allowance
    cases n with
    | zero => omega
    | succ n =>
      have hsilent := ((verdict_eq_none_iff _ _).mp (hgoing n (Nat.lt_succ_self n))).2
      rw [(hprogress.mono (Nat.le_succ (n + 1))).taken hrunning] at hsilent
      have hbefore := Budget.lt_of_failure?_upTo hsilent
      omega
  rw [hallowance]
  exact ⟨hprogress, rfl⟩

/-- A run that reached its limit and is resumed does what one run under both limits does. -/
theorem run_resumed {first second : Nat} {middle : Machine} {fuel : Nat} (hfirst : 1 ≤ first)
    (hsecond : 1 ≤ second) (hshort : first < Numeral.bound) (hshort' : second < Numeral.bound)
    (hcut : machine.run fuel (upTo first) = (middle, some (.error (limitFailure first))))
    (more : Nat) :
    machine.run (first + more) (upTo (first + second)) =
      ((middle.run more (upTo second)).1,
        (middle.run more (upTo second)).2.map (resumed first second)) := by
  rw [← Int.natAbs_natCast first] at hshort
  obtain ⟨hprogress, rfl⟩ := progresses_of_cut hshort hcut
  have hallowance : allowance first = first := by
    unfold allowance
    omega
  rw [hallowance] at hprogress ⊢
  have hrunning : machine.halted = false := running_of_progress (hprogress 0 hfirst)
  have hsteps := (hprogress.counted hrunning).1
  have hgoing : ∀ i < first,
      verdictAt (upTo (first + second)) machine.steps machine i = none := by
    intro i hi
    refine (verdict_eq_none_iff _ _).mpr ⟨hprogress i hi, ?_⟩
    rw [(hprogress.mono hi).taken hrunning, Budget.failure?_upTo, if_neg (by omega)]
  unfold run
  rw [runFrom_add machine first more hgoing, hsteps]
  exact runFrom_resumed hshort' more (Nat.le_of_eq hsteps.symm)

/-- A run that ended otherwise than by its limit ends so under any higher limit. -/
theorem runFrom_of_raised {raised : Budget} {fuel : Nat}
    (hraised : ∀ taken, budget.failure? taken = none → raised.failure? taken = none)
    (hother : ∀ taken failure, budget.failure? taken = some failure → result ≠ .error failure)
    (hrun : runFrom budget begun fuel machine = (after, some result)) :
    runFrom raised begun fuel machine = (after, some result) := by
  obtain ⟨n, hn, hgoing, hended, hafter⟩ := (runFrom_eq_some_iff fuel machine).mp hrun
  refine (runFrom_eq_some_iff fuel machine).mpr ⟨n, hn, ?_, ?_, hafter⟩
  · intro i hi
    obtain ⟨hprogress, hsilent⟩ := (verdict_eq_none_iff _ _).mp (hgoing i hi)
    exact (verdict_eq_none_iff _ _).mpr ⟨hprogress, hraised _ hsilent⟩
  · cases result with
    | ok taken => exact (verdict_eq_ok_iff _ _ _).mpr ((verdict_eq_ok_iff _ _ _).mp hended)
    | error failure =>
      refine (verdict_eq_error_iff _ _ _).mpr (Or.inl ?_)
      rcases (verdict_eq_error_iff _ _ _).mp hended with hstep | ⟨-, hfailure⟩
      · exact hstep
      · exact absurd rfl (hother _ failure hfailure)

/-- A run is its steps, one after the other, under a budget. A halted machine is left as it is. Else
the first step that makes no progress ends the run, which returns the number of its steps or fails
as that step did, if there is no limit or the allowance reaches to it; and a limit whose allowance is
used up by steps that all made progress fails the run there. So a run that reached its limit and is
then resumed comes to what one run under both limits together comes to, and a run that did not reach
its limit is the same under every higher limit and under none. -/
theorem run_iterates_step (machine : Machine) :
    (machine.halted = true → ∀ fuel budget,
      machine.run (fuel + 1) budget = (machine, some (.ok 0))) ∧
    (machine.halted = false → ∀ limit? n, machine.Progresses n →
      (machine.afterSteps n).step.2 ≠ .ok true → (∀ limit ∈ limit?, n + 1 ≤ allowance limit) →
        ∀ fuel, n + 1 ≤ fuel → machine.run fuel (ofLimit? limit?) =
          (machine.afterSteps (n + 1),
            some ((machine.afterSteps n).step.2.map fun _ ↦ n + 1))) ∧
    (∀ limit : Int, limit.natAbs < Numeral.bound → machine.Progresses (allowance limit) →
      (machine.afterSteps (allowance limit)).steps = machine.steps + allowance limit ∧
        ∀ fuel, allowance limit ≤ fuel → machine.run fuel (upTo limit) =
          (machine.afterSteps (allowance limit),
            some (.error (.fault (.stepLimitExceeded (.integer (.int limit))))))) ∧
    (∀ (first second : Nat), 1 ≤ first → 1 ≤ second → first < Numeral.bound →
      second < Numeral.bound → ∀ fuel middle,
        machine.run fuel (upTo first) =
          (middle, some (.error (.fault (.stepLimitExceeded (.integer (.int first)))))) →
        ∀ more, machine.run (first + more) (upTo (first + second)) =
          ((middle.run more (upTo second)).1,
            (middle.run more (upTo second)).2.map (resumed first second))) ∧
    ∀ (limit : Int) (raised? : Option Int), limit.natAbs < Numeral.bound →
      (∀ raised ∈ raised?, limit ≤ raised) → ∀ fuel after result,
        machine.run fuel (upTo limit) = (after, some result) →
        result ≠ .error (.fault (.stepLimitExceeded (.integer (.int limit)))) →
          machine.run fuel (ofLimit? raised?) = (after, some result) := by
  refine ⟨run_of_halted, ?_, ?_, ?_, ?_⟩
  · intro hrunning limit? n hprogress hstop hwithin fuel hfuel
    exact run_of_stop hrunning hprogress hwithin hstop hfuel
  · intro limit hshort hprogress
    constructor
    · have hpositive : 0 < allowance limit := by
        clear hshort
        unfold allowance
        omega
      have hrunning : machine.halted = false := running_of_progress (hprogress 0 hpositive)
      exact (hprogress.counted hrunning).1
    · intro fuel hfuel
      rw [← Budget.limitFailure_of_short hshort]
      exact run_of_limit hprogress hfuel
  · intro first second hfirst hsecond hshort hshort' fuel middle hcut more
    have hnatAbs : (first : Int).natAbs < Numeral.bound := by
      rw [Int.natAbs_natCast]
      exact hshort
    rw [← Budget.limitFailure_of_short hnatAbs] at hcut
    exact run_resumed hfirst hsecond hshort hshort' hcut more
  · intro limit raised? hshort hraised fuel after result hrun hother
    rw [← Budget.limitFailure_of_short hshort] at hother
    clear hshort
    refine runFrom_of_raised ?_ ?_ hrun
    · intro taken hsilent
      cases raised? with
      | none => rfl
      | some raised =>
        have hle : limit ≤ raised := hraised raised rfl
        rw [Budget.failure?_upTo] at hsilent
        rw [ofLimit?, Budget.failure?_upTo]
        split at hsilent
        · contradiction
        · rw [if_neg (by omega)]
    · intro taken failure hfailure
      rw [Budget.failure?_upTo] at hfailure
      split at hfailure
      · rw [← Option.some.inj hfailure]
        exact hother
      · contradiction

/-- An addition and a halt, in one run, in one that is cut off after the addition and resumed, and
without a limit; from then on there are no more steps. A negative limit lets the addition pass. -/
theorem run_of_addition_and_halt :
    let program : Program :=
      ⟨#[.add (.int 0), .halt], [], rfl, by decide, Labels.targets_of_undefined? rfl⟩
    let machine := start program { r := [.int 5] }
    machine.run 2 (upTo (-3)) =
        (machine.afterSteps 1,
          some (.error (.fault (.stepLimitExceeded (.integer (.int (-3))))))) ∧
      machine.run 2 (upTo (1 + 1)) = (machine.afterSteps 2, some (.ok 2)) ∧
      machine.run 2 (upTo 2) = (machine.afterSteps 2, some (.ok 2)) ∧
      machine.run 2 .unlimited = (machine.afterSteps 2, some (.ok 2)) ∧
      (machine.afterSteps 2).run 1 .unlimited = (machine.afterSteps 2, some (.ok 0)) := by
  intro program machine
  have hone : 1 < Numeral.bound := Numeral.lt_bound_of_lt_pow (k := 1) (by decide) (by decide)
  have htwo : 2 < Numeral.bound := Numeral.lt_bound_of_lt_pow (k := 1) (by decide) (by decide)
  have hthree : (-3 : Int).natAbs < Numeral.bound := by
    rw [Int.natAbs_neg]
    exact Numeral.lt_bound_of_lt_pow (k := 1) (by decide) (by decide)
  have hprogress : machine.Progresses 1
    | 0, _ => rfl
  have hstopped : (machine.afterSteps 1).step.2 = .ok false := rfl
  obtain ⟨-, hstop, hlimit, hresume, hraise⟩ := run_iterates_step machine
  have hcut := (hlimit 1 hone hprogress).2 1 (by decide)
  have hwhole := hstop rfl (some 2) 1 hprogress (by simp [hstopped]) (by decide) 2 (by decide)
  refine ⟨(hlimit (-3) hthree hprogress).2 2 (by decide), ?_, hwhole, ?_, ?_⟩
  · exact hresume 1 1 (by decide) (by decide) hone hone 1 _ hcut 1
  · exact hraise 2 none htwo (by simp) 2 _ _ hwhole (by simp)
  · exact (run_iterates_step (machine.afterSteps 2)).1 rfl 0 .unlimited

end Machine

end Accumulator
