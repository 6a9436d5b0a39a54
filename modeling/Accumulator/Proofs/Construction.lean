import Accumulator.Proofs.Acceptance
import Accumulator.Proofs.Labels
import Mathlib.Data.List.Nodup

/-!
What comes of building a program. The label table lists the labels in the order of their addresses
(`Labels.pairwise_ofList`), so the search through the table for a name that was there before finds
the first label with one of the earlier names (`Labels.repeated?_ofList_eq_some_iff`), and the
search through the instructions finds the first jump to nowhere. Hence a list is accepted or
rejected for what is wrong with it first, repeated labels before undefined ones.
-/

set_option autoImplicit false
set_option relaxedAutoImplicit false

namespace Accumulator

/-- No two labels have the same name. -/
def LabelsDistinct (instructions : List Instruction) : Prop :=
  ∀ (i j : Nat) (name : String), instructions[i]? = some (.label name) →
    instructions[j]? = some (.label name) → i = j

/-- Every jump goes to a label, before it or behind it. -/
def JumpsDefined (instructions : List Instruction) : Prop :=
  ∀ instruction ∈ instructions, ∀ target, instruction.target? = some target →
    .label target ∈ instructions

/-- At the second address stands the first label whose name an earlier one has, and that is at the
first address and nowhere else before. -/
structure IsFirstRepetition (instructions : List Instruction) (name : String)
    (first second : Nat) : Prop where
  lt : first < second
  first_label : instructions[first]? = some (.label name)
  second_label : instructions[second]? = some (.label name)
  unique : ∀ i < second, instructions[i]? = some (.label name) → i = first
  least : ∀ i j other, i < j → j < second → instructions[i]? = some (.label other) →
    instructions[j]? ≠ some (.label other)

/-- The first jump to a name that is no label goes to this one. -/
def IsFirstUndefined (instructions : List Instruction) (name : String) : Prop :=
  ∃ before jump after, instructions = before ++ jump :: after ∧ jump.target? = some name ∧
    .label name ∉ instructions ∧
    ∀ earlier ∈ before, ∀ target, earlier.target? = some target → .label target ∈ instructions

variable {instructions : List Instruction} {name : String}

namespace Labels

variable {first second : Nat} {before after : Labels}

/-! ### The order of the table -/

/-- The table lists the labels in the order of their addresses. -/
theorem pairwise_ofList (instructions : List Instruction) :
    (ofList instructions).Pairwise fun earlier later ↦ earlier.2 < later.2 := by
  have haddresses : instructions.zipIdx.Pairwise fun earlier later ↦ earlier.2 < later.2 := by
    rw [← List.pairwise_map (f := Prod.snd), List.zipIdx_map_snd]
    exact List.pairwise_lt_range' 1
  refine haddresses.filterMap _ fun earlier later hlt label hlabel label' hlabel' ↦ ?_
  obtain ⟨_, -, rfl⟩ := Option.map_eq_some_iff.mp hlabel
  obtain ⟨_, -, rfl⟩ := Option.map_eq_some_iff.mp hlabel'
  exact hlt

/-- In front of an entry of the table stand the labels at smaller addresses. -/
theorem mem_before_iff (hsplit : ofList instructions = before ++ (name, second) :: after)
    (other : String) (address : Nat) :
    (other, address) ∈ before ↔
      address < second ∧ instructions[address]? = some (.label other) := by
  have hsorted := pairwise_ofList instructions
  rw [hsplit, List.pairwise_append] at hsorted
  obtain ⟨-, hlast, hcross⟩ := hsorted
  rw [← mem_ofList, hsplit]
  constructor
  · intro hmem
    exact ⟨hcross _ hmem _ List.mem_cons_self, List.mem_append_left _ hmem⟩
  · rintro ⟨hlt, hmem⟩
    rcases List.mem_append.mp hmem with hbefore | hrest
    · exact hbefore
    · rcases List.mem_cons.mp hrest with heq | hafter
      · cases heq
        exact absurd hlt (Nat.lt_irrefl _)
      · have hbehind : second < address := (List.pairwise_cons.mp hlast).1 _ hafter
        exact absurd hlt (Nat.lt_asymm hbehind)

/-- Names are repeated in a part of the table exactly if they are at two of its addresses. -/
theorem nodup_names_iff {labels : Labels}
    (hsorted : labels.Pairwise fun earlier later ↦ earlier.2 < later.2) :
    (labels.map Prod.fst).Nodup ↔
      ∀ other i j, i < j → (other, i) ∈ labels → (other, j) ∉ labels := by
  rw [List.Nodup, List.pairwise_map]
  constructor
  · intro hnodup other i j hlt hi hj
    have hnames : (labels.map Prod.fst).Nodup := List.pairwise_map.mpr hnodup
    have heq : (other, i) = (other, j) := List.inj_on_of_nodup_map hnames hi hj rfl
    exact absurd (Prod.ext_iff.mp heq).2 (Nat.ne_of_lt hlt)
  · intro hdistinct
    refine hsorted.imp_of_mem fun {earlier later} hearlier hlater hlt heq ↦ ?_
    refine hdistinct earlier.1 earlier.2 later.2 hlt hearlier ?_
    rw [heq]
    exact hlater

/-! ### The first repetition -/

theorem repeatedAfter?_eq_some_iff (seen labels : Labels) :
    repeatedAfter? seen labels = some (name, first, second) ↔
      ∃ before after, labels = before ++ (name, second) :: after ∧
        repeatedAfter? seen before = none ∧ (before.reverse ++ seen).lookup name = some first := by
  induction labels generalizing seen with
  | nil => simp [repeatedAfter?]
  | cons label rest ih =>
    rw [repeatedAfter?]
    cases hlookup : seen.lookup label.1 with
    | some found =>
      constructor
      · intro h
        cases h
        exact ⟨[], rest, rfl, rfl, hlookup⟩
      · rintro ⟨before, after, hsplit, hnone, hfirst⟩
        cases before with
        | nil =>
          cases hsplit
          rw [List.reverse_nil, List.nil_append, hlookup] at hfirst
          cases hfirst
          rfl
        | cons other before =>
          cases hsplit
          rw [repeatedAfter?, hlookup] at hnone
          contradiction
    | none =>
      dsimp only
      rw [ih]
      constructor
      · rintro ⟨before, after, rfl, hnone, hfirst⟩
        refine ⟨label :: before, after, rfl, ?_, ?_⟩
        · rw [repeatedAfter?, hlookup]
          exact hnone
        · rw [List.reverse_cons, List.append_assoc]
          exact hfirst
      · rintro ⟨before, after, hsplit, hnone, hfirst⟩
        cases before with
        | nil =>
          cases hsplit
          rw [List.reverse_nil, List.nil_append, hlookup] at hfirst
          contradiction
        | cons other before =>
          cases hsplit
          rw [repeatedAfter?, hlookup] at hnone
          rw [List.reverse_cons, List.append_assoc] at hfirst
          exact ⟨before, after, rfl, hnone, hfirst⟩

/-- The search ends at the first entry whose name the entries before it have. -/
theorem repeated?_eq_some_iff (labels : Labels) :
    labels.repeated? = some (name, first, second) ↔
      ∃ before after, labels = before ++ (name, second) :: after ∧
        (before.map Prod.fst).Nodup ∧ (name, first) ∈ before := by
  have hlookup (before : Labels) (hnodup : (before.map Prod.fst).Nodup) :
      (before.reverse ++ []).lookup name = some first ↔ (name, first) ∈ before := by
    have hreversed : (before.reverse.map Prod.fst).Nodup := by
      rw [List.map_reverse]
      exact List.nodup_reverse.mpr hnodup
    rw [List.append_nil, lookup_eq_some_iff hreversed, List.mem_reverse]
  rw [repeated?, repeatedAfter?_eq_some_iff]
  simp only [← repeated?_eq_none_iff, repeated?] at hlookup ⊢
  constructor
  · rintro ⟨before, after, hsplit, hnone, hfirst⟩
    exact ⟨before, after, hsplit, hnone, (hlookup before hnone).mp hfirst⟩
  · rintro ⟨before, after, hsplit, hnone, hfirst⟩
    exact ⟨before, after, hsplit, hnone, (hlookup before hnone).mpr hfirst⟩

theorem repeated?_ofList_eq_some_iff (instructions : List Instruction) :
    (ofList instructions).repeated? = some (name, first, second) ↔
      IsFirstRepetition instructions name first second := by
  have hsorted := pairwise_ofList instructions
  rw [repeated?_eq_some_iff]
  constructor
  · rintro ⟨before, after, hsplit, hnodup, hfirst⟩
    have hmem := mem_before_iff hsplit
    rw [hsplit] at hsorted
    have hdistinct := (nodup_names_iff (List.pairwise_append.mp hsorted).1).mp hnodup
    obtain ⟨hlt, hlabel⟩ := (hmem name first).mp hfirst
    refine ⟨hlt, hlabel, ?_, ?_, ?_⟩
    · rw [← mem_ofList, hsplit]
      exact List.mem_append_right _ List.mem_cons_self
    · intro i hi hat
      have hthere := (hmem name i).mpr ⟨hi, hat⟩
      rcases Nat.lt_trichotomy i first with hbefore | rfl | hbehind
      · exact absurd hfirst (hdistinct name i first hbefore hthere)
      · rfl
      · exact absurd hthere (hdistinct name first i hbehind hfirst)
    · intro i j other hij hj hi hat
      exact hdistinct other i j hij ((hmem other i).mpr ⟨Nat.lt_trans hij hj, hi⟩)
        ((hmem other j).mpr ⟨hj, hat⟩)
  · rintro ⟨hlt, hfirst, hsecond, -, hleast⟩
    obtain ⟨before, after, hsplit⟩ :=
      List.append_of_mem ((mem_ofList instructions name second).mpr hsecond)
    have hmem := mem_before_iff hsplit
    rw [hsplit] at hsorted
    refine ⟨before, after, hsplit, ?_, (hmem name first).mpr ⟨hlt, hfirst⟩⟩
    refine (nodup_names_iff (List.pairwise_append.mp hsorted).1).mpr ?_
    intro other i j hij hi hj
    obtain ⟨hjlt, hat⟩ := (hmem other j).mp hj
    exact hleast i j other hij hjlt ((hmem other i).mp hi).2 hat

theorem labelsDistinct_iff (instructions : List Instruction) :
    LabelsDistinct instructions ↔ (ofList instructions).repeated? = none := by
  rw [repeated?_eq_none_iff, nodup_names_iff (pairwise_ofList instructions)]
  simp only [mem_ofList]
  constructor
  · intro hdistinct other i j hlt hi hj
    exact absurd (hdistinct i j other hi hj) (Nat.ne_of_lt hlt)
  · intro hdistinct i j other hi hj
    rcases Nat.lt_trichotomy i j with hlt | heq | hlt
    · exact absurd hj (hdistinct other i j hlt hi)
    · exact heq
    · exact absurd hi (hdistinct other j i hlt hj)

/-! ### The first jump to nowhere -/

theorem jumpsDefined_iff (instructions : List Instruction) :
    JumpsDefined instructions ↔ (ofList instructions).undefined? instructions = none := by
  rw [undefined?_eq_none_iff, map_fst_ofList]
  simp only [mem_names_iff]
  rfl

theorem undefined?_eq_some_iff (instructions : List Instruction) :
    (ofList instructions).undefined? instructions = some name ↔
      IsFirstUndefined instructions name := by
  have hfound (instruction : Instruction) (target : String) :
      (instruction.target?.filter fun target ↦
          ((ofList instructions).lookup target).isNone) = some target ↔
        instruction.target? = some target ∧ .label target ∉ instructions := by
    rw [Option.filter_eq_some_iff, Option.isNone_iff_eq_none, lookup_eq_none_iff, map_fst_ofList,
      mem_names_iff]
  have hpassed (instruction : Instruction) :
      (instruction.target?.filter fun target ↦
          ((ofList instructions).lookup target).isNone) = none ↔
        ∀ target, instruction.target? = some target → .label target ∈ instructions := by
    rw [Option.eq_none_iff_forall_ne_some]
    refine forall_congr' fun target ↦ ?_
    rw [Ne, hfound, not_and, not_not]
  unfold undefined? IsFirstUndefined
  rw [List.findSome?_eq_some_iff]
  simp only [hfound, hpassed]
  constructor
  · rintro ⟨before, jump, after, hsplit, ⟨htarget, hnowhere⟩, hearlier⟩
    exact ⟨before, jump, after, hsplit, htarget, hnowhere, hearlier⟩
  · rintro ⟨before, jump, after, hsplit, htarget, hnowhere, hearlier⟩
    exact ⟨before, jump, after, hsplit, ⟨htarget, hnowhere⟩, hearlier⟩

end Labels

namespace Program

variable {program : Program}

theorem address_eq_error_iff (hprogram : ofList instructions = .ok program) (name : String)
    (fault : Fault) :
    program.address name = .error fault ↔
      fault = .labelNotFound name ∧ .label name ∉ instructions := by
  have hat (address : Nat) :
      program.address name = .ok address ↔ instructions[address]? = some (.label name) := by
    rw [address_eq_ok_iff, instructions_of_ofList hprogram, List.getElem?_toArray]
  rw [List.mem_iff_getElem?]
  simp only [← hat, not_exists]
  unfold address
  cases program.labels.lookup name with
  | none => simp [eq_comm]
  | some address => simp

/-- A list makes a program exactly if its labels have different names and its jumps go to labels.
The table of the program then has every label at its address, in the order of the addresses, and no
other name has an address. A list with repeated names is rejected for the first label that repeats
one, whatever its jumps do; any other that is rejected is rejected for its first jump to nowhere. -/
theorem construction_finds_first_fault (instructions : List Instruction) :
    ((∃ program, ofList instructions = .ok program) ↔
      LabelsDistinct instructions ∧ JumpsDefined instructions) ∧
    (∀ program, ofList instructions = .ok program →
      program.instructions.toList = instructions ∧
        (∀ name address, (name, address) ∈ program.labels ↔
          instructions[address]? = some (.label name)) ∧
        (program.labels.Pairwise fun earlier later ↦ earlier.2 < later.2) ∧
        (∀ label ∈ program.labels, label.2 < instructions.length) ∧
        (∀ name address, program.address name = .ok address ↔
          instructions[address]? = some (.label name)) ∧
        ∀ name fault, program.address name = .error fault ↔
          fault = .labelNotFound name ∧ .label name ∉ instructions) ∧
    (¬ LabelsDistinct instructions → ∃ (name : String) (first second : Nat),
      ofList instructions = .error (.duplicateLabel name first second) ∧
        IsFirstRepetition instructions name first second) ∧
    (LabelsDistinct instructions → ¬ JumpsDefined instructions → ∃ name,
      ofList instructions = .error (.labelNotFound name) ∧
        IsFirstUndefined instructions name) := by
  rw [exists_ofList_iff_tables, Labels.labelsDistinct_iff, Labels.jumpsDefined_iff]
  refine ⟨Iff.rfl, ?_, ?_, ?_⟩
  · intro program hprogram
    have hinstructions := instructions_of_ofList hprogram
    have hlabels : program.labels = Labels.ofList instructions := by
      rw [program.labels_eq, hinstructions]
    refine ⟨by rw [hinstructions], ?_, ?_, ?_, ?_, address_eq_error_iff hprogram⟩
    · intro name address
      rw [hlabels, Labels.mem_ofList]
    · rw [hlabels]
      exact Labels.pairwise_ofList instructions
    · rintro ⟨name, address⟩ hmem
      rw [hlabels, Labels.mem_ofList] at hmem
      exact (List.getElem?_eq_some_iff.mp hmem).1
    · intro name address
      rw [address_eq_ok_iff, hinstructions, List.getElem?_toArray]
  · intro hrepeated
    obtain ⟨⟨name, first, second⟩, hfound⟩ := Option.ne_none_iff_exists'.mp hrepeated
    refine ⟨name, first, second, ?_, (Labels.repeated?_ofList_eq_some_iff _).mp hfound⟩
    exact (ofList_eq_error_iff _).mpr (Or.inl ⟨name, first, second, hfound, rfl⟩)
  · intro hnone hundefined
    obtain ⟨name, hfound⟩ := Option.ne_none_iff_exists'.mp hundefined
    refine ⟨name, ?_, (Labels.undefined?_eq_some_iff _).mp hfound⟩
    exact (ofList_eq_error_iff _).mpr (Or.inr ⟨hnone, name, hfound, rfl⟩)

/-- A jump to a label behind it is sound. Of two repeated names the one that is met again first is
reported, although a jump to nowhere stands before both; without them, the first such jump is. -/
theorem construction_of_sound_and_faulty_lists :
    let sound : List Instruction := [.jumpIfZero "end", .label "end", .halt]
    let repeated : List Instruction :=
      [.jump "nowhere", .label "a", .label "b", .label "b", .label "a"]
    let undefined : List Instruction := [.label "a", .jump "a", .jumpIfZero "c", .jump "b"]
    (∃ program, ofList sound = .ok program ∧ program.address "end" = .ok 1 ∧
      program.address "a" = .error (.labelNotFound "a")) ∧
    (ofList repeated = .error (.duplicateLabel "b" 2 3) ∧ IsFirstRepetition repeated "b" 2 3) ∧
    ofList undefined = .error (.labelNotFound "c") ∧ IsFirstUndefined undefined "c" := by
  intro sound repeated undefined
  refine ⟨?_, ?_, ?_⟩
  · let program : Program :=
      ⟨sound.toArray, [("end", 1)], rfl, by decide, Labels.targets_of_undefined? rfl⟩
    have hprogram : ofList sound = .ok program := rfl
    obtain ⟨-, -, -, -, haddress, hnone⟩ :=
      (construction_finds_first_fault sound).2.1 program hprogram
    exact ⟨program, hprogram, (haddress "end" 1).mpr rfl, (hnone "a" _).mpr ⟨rfl, by decide⟩⟩
  · have hrepeated : ¬ LabelsDistinct repeated := fun hdistinct ↦
      absurd (hdistinct 1 4 "a" rfl rfl) (by decide)
    have hfault : ofList repeated = .error (.duplicateLabel "b" 2 3) := rfl
    obtain ⟨name, first, second, herror, hfirst⟩ :=
      (construction_finds_first_fault repeated).2.2.1 hrepeated
    cases hfault.symm.trans herror
    exact ⟨hfault, hfirst⟩
  · have hdistinct : LabelsDistinct undefined := (Labels.labelsDistinct_iff undefined).mpr rfl
    have hundefined : ¬ JumpsDefined undefined := fun hdefined ↦
      absurd (hdefined (.jump "b") (by decide) "b" rfl) (by decide)
    have hfault : ofList undefined = .error (.labelNotFound "c") := rfl
    obtain ⟨name, herror, hfirst⟩ :=
      (construction_finds_first_fault undefined).2.2.2 hdistinct hundefined
    cases hfault.symm.trans herror
    exact ⟨hfault, hfirst⟩

end Program

end Accumulator
