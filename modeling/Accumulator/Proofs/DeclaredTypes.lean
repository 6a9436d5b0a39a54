import Accumulator.Proofs.ExitCodes
import Accumulator.Proofs.Provenance
import Accumulator.Proofs.Tables

/-!
Types of settings. Registers are declared to hold integers, the trace to be a truth value and the
limit to be an integer. Unknown names never get past the checks, but values of other types do:
`Settings.Slips` lists every way around them, and but for these a text gives settings of the
declared types or is refused by a verdict on what it says (`Settings.isTypeSound_iff`). Where nothing
slips, a machine holds integers alone, however long it runs (`Settings.HasDeclaredTypes.keepsTypes`).
-/

set_option autoImplicit false
set_option relaxedAutoImplicit false

namespace Accumulator

namespace Settings

variable {base : Option Path} {document entries : Toml.Table} {value : Toml.Value}
  {values : List Value} {settings : Settings}

/-! ### Declared types -/

/-- Registers that hold integers, a truth value as the trace, and an integer as the limit, if there
is one. -/
structure HasDeclaredTypes (settings : Settings) : Prop where
  registers : ∀ value ∈ settings.registers, ∃ n, value = .int n
  trace : ∃ b, settings.trace = .boolean b
  maxSteps : ∀ value, settings.maxSteps = some value → ∃ n, value = .integer n

/-- Settings of the declared types, or a verdict. -/
def IsTypeSound : Except Error Settings → Prop
  | .ok settings => settings.HasDeclaredTypes
  | .error error => error.isVerdict = true

/-! ### Ways around the checks -/

/-- What stands in place of the settings gets around the checks: it is refused without a verdict, or
it is accepted with a value of another type. -/
inductive Slips : Toml.Value → Prop
  | integer (n : Int) : Slips (.integer n)
  | float (x : Decimal.Binary64) : Slips (.float x)
  | boolean (b : Bool) : Slips (.boolean b)
  | moment (m : Toml.Moment) : Slips (.moment m)
  | emptyText : Slips (.string "")
  /-- An array whose elements could all be names. An empty one is of that kind. -/
  | nameList {elements : List Toml.Value}
      (h : ∀ element ∈ elements, ∃ name ∈ names, element = .string name) : Slips (.array elements)
  /-- An element that is an array or a table. -/
  | unordered {elements : List Toml.Value} {element : Toml.Value} (hmem : element ∈ elements)
      (hrank : element.rank? = none) : Slips (.array elements)
  /-- Two elements of different sorts, neither of which is a name. -/
  | unlike {elements : List Toml.Value} {a b : Toml.Value} {rank other : Toml.Rank}
      (ha : a ∈ elements) (hb : b ∈ elements) (hnamea : ∀ name ∈ names, a ≠ .string name)
      (hnameb : ∀ name ∈ names, b ≠ .string name) (hranka : a.rank? = some rank)
      (hrankb : b.rank? = some other) (hsort : rank.sort ≠ other.sort) : Slips (.array elements)
  /-- Wrong registers that nest values too deep to be shown. -/
  | unshown {entries : Toml.Table} {value : Toml.Value} (hknown : AllKnown entries)
      (hfind : entries.find? "registers" = some value)
      (hwrong : ∀ values, ¬ TakesRegisters (some value) values)
      (htext : value.text = .error .nested) : Slips (.table entries)
  | source {entries : Toml.Table} {values : List Value} {value : Toml.Value}
      (hknown : AllKnown entries) (hregisters : TakesRegisters (entries.find? "registers") values)
      (hfind : entries.find? "source" = some value) (hwrong : ∀ text, value ≠ .string text) :
      Slips (.table entries)
  | truthValue {entries : Toml.Table} {values : List Value} {b : Bool} (hknown : AllKnown entries)
      (hregisters : TakesRegisters (entries.find? "registers") values) (hmem : .bool b ∈ values) :
      Slips (.table entries)
  | trace {entries : Toml.Table} {values : List Value} {value : Toml.Value}
      (hknown : AllKnown entries) (hregisters : TakesRegisters (entries.find? "registers") values)
      (hfind : entries.find? "trace" = some value) (hwrong : ∀ b, value ≠ .boolean b) :
      Slips (.table entries)
  | maxSteps {entries : Toml.Table} {values : List Value} {value : Toml.Value}
      (hknown : AllKnown entries) (hregisters : TakesRegisters (entries.find? "registers") values)
      (hfind : entries.find? "max_steps" = some value) (hwrong : ∀ n, value ≠ .integer n) :
      Slips (.table entries)

theorem Slips.allKnown (h : Slips (.table entries)) : AllKnown entries := by
  cases h <;> assumption

/-- Registers that are refused with their text slip only if they have none. -/
theorem Slips.text_eq (h : Slips (.table entries)) (hfind : entries.find? "registers" = some value)
    (hwrong : ∀ values, ¬ TakesRegisters (some value) values) : value.text = .error .nested := by
  cases h with
  | unshown _ hother _ htext =>
    rw [hfind] at hother
    cases hother
    exact htext
  | source _ hregisters | truthValue _ hregisters | trace _ hregisters | maxSteps _ hregisters =>
    rw [hfind] at hregisters
    exact absurd hregisters (hwrong _)

/-- Settings that are accepted have the declared types exactly if nothing has slipped. -/
theorem Accepts.hasDeclaredTypes_iff (h : Accepts base entries settings) :
    settings.HasDeclaredTypes ↔ ¬ Slips (.table entries) := by
  constructor
  · intro htypes hslips
    cases hslips with
    | unshown _ hfind hwrong =>
      have hregisters := h.registers
      rw [hfind] at hregisters
      exact hwrong _ hregisters
    | source _ _ hfind hwrong => exact not_takesSource hfind hwrong h.source
    | truthValue _ hregisters hmem =>
      rw [hregisters.unique h.registers] at hmem
      obtain ⟨n, hn⟩ := htypes.registers _ hmem
      contradiction
    | trace _ _ hfind hwrong =>
      obtain ⟨b, hb⟩ := htypes.trace
      rw [h.trace, hfind] at hb
      exact hwrong b hb
    | maxSteps _ _ hfind hwrong =>
      obtain ⟨n, hn⟩ := htypes.maxSteps _ (h.maxSteps.trans hfind)
      exact hwrong n hn
  · intro hslips
    refine ⟨?registers, ?trace, ?maxSteps⟩
    case registers =>
      intro value hmem
      cases value with
      | int n => exact ⟨n, rfl⟩
      | bool b => exact absurd (.truthValue h.known h.registers hmem) hslips
    case trace =>
      rw [h.trace]
      cases hfind : entries.find? "trace" with
      | none => exact ⟨false, rfl⟩
      | some value =>
        by_contra hwrong
        rw [not_exists] at hwrong
        exact hslips (.trace h.known h.registers hfind hwrong)
    case maxSteps =>
      intro value hvalue
      rw [h.maxSteps] at hvalue
      by_contra hwrong
      rw [not_exists] at hwrong
      exact hslips (.maxSteps h.known h.registers hvalue hwrong)

theorem isTypeSound_iff_of_table (hwritten : written document = .table entries) :
    IsTypeSound (ofTable base document) ↔ ¬ Slips (.table entries) := by
  have hloaded : Loaded base entries (ofTable base document) := loaded_ofTable hwritten
  generalize ofTable base document = result at hloaded
  cases hloaded with
  | unknown hgiven hname => exact iff_of_true rfl fun hslips ↦ hname (hslips.allKnown _ hgiven)
  | registers hknown hfind hwrong =>
    refine (isVerdict_registersError_iff _).trans (not_congr ?_)
    exact ⟨.unshown hknown hfind hwrong, fun hslips ↦ hslips.text_eq hfind hwrong⟩
  | source hknown hregisters hfind hwrong =>
    exact iff_of_false Bool.false_ne_true
      (not_not_intro (.source hknown hregisters hfind hwrong))
  | accepted h => exact h.hasDeclaredTypes_iff

/-- Where the loading breaks off, something has got around the checks. -/
theorem isTypeSound_iff_of_broken {error : Error} (herror : ofTable base document = .error error)
    (hverdict : error.isVerdict = false) (hslips : Slips value) :
    IsTypeSound (ofTable base document) ↔ ¬ Slips value := by
  have hbroken : ¬ IsTypeSound (.error error) := by
    rw [IsTypeSound, hverdict]
    exact Bool.false_ne_true
  rw [herror]
  exact iff_of_false hbroken (not_not_intro hslips)

theorem isTypeSound_iff_of_array {elements : List Toml.Value}
    (hwritten : written document = .array elements) :
    IsTypeSound (ofTable base document) ↔ ¬ Slips (.array elements) := by
  have hchecked : Checked elements (checkNames (.array elements)) := checked_checkNames rfl
  generalize hresult : checkNames (.array elements) = result at hchecked
  rw [← hwritten] at hresult
  cases hchecked with
  | unordered hmem hrank =>
    exact isTypeSound_iff_of_broken (ofTable_of_checkNames_error hresult) rfl
      (.unordered hmem hrank)
  | unlike ha hb hnamea hnameb hranka hrankb hsort =>
    exact isTypeSound_iff_of_broken (ofTable_of_checkNames_error hresult) rfl
      (.unlike ha hb (isName_eq_false_iff.mp hnamea) (isName_eq_false_iff.mp hnameb) hranka hrankb
        hsort)
  | known h =>
    exact isTypeSound_iff_of_broken (ofTable_of_no_table rfl hresult (by simp [hwritten])) rfl
      (.nameList fun element hmem ↦ isName_iff.mp (h element hmem))
  | unknown hmem hstranger hranked halike =>
    rw [ofTable_of_checkNames_error hresult]
    refine iff_of_true isVerdict_strangersError fun hslips ↦ ?_
    cases hslips with
    | nameList h =>
      obtain ⟨name, hname, heq⟩ := h _ hmem
      exact isName_eq_false_iff.mp hstranger name hname heq
    | unordered hmem hrank =>
      obtain ⟨rank, hsome⟩ := hranked _ hmem
      rw [hrank] at hsome
      contradiction
    | unlike ha hb hnamea hnameb hranka hrankb hsort =>
      exact hsort (halike _ ha _ hb (isName_eq_false_iff.mpr hnamea)
        (isName_eq_false_iff.mpr hnameb) _ _ hranka hrankb)

/-- The characters of a text are texts of length one, and so are no names. -/
theorem singleton_notMem_names (c : Char) : String.singleton c ∉ names := by
  have hlengths : ∀ name ∈ names, name.length ≠ 1 := by decide
  exact fun hname ↦ hlengths _ hname (by simp)

theorem isTypeSound_iff_of_string {text : String} (hwritten : written document = .string text) :
    IsTypeSound (ofTable base document) ↔ ¬ Slips (.string text) := by
  cases hchars : text.toList with
  | nil =>
    obtain rfl : text = "" := String.toList_inj.mp hchars
    exact isTypeSound_iff_of_broken (ofTable_of_no_table hwritten rfl (by simp)) rfl .emptyText
  | cons c rest =>
    have hgiven : String.singleton c ∈ text.toList.map String.singleton := by
      rw [hchars]
      exact List.mem_cons_self
    obtain ⟨unknown, -, herror⟩ :=
      checkNames_of_unknown (members_string text) hgiven (singleton_notMem_names c)
    rw [ofTable_of_checkNames_error (hwritten ▸ herror)]
    refine iff_of_true rfl fun hslips ↦ ?_
    cases hslips
    contradiction

/-- A document is refused by a verdict or makes settings of the declared types, exactly if what it
says about settings does not get around the checks. -/
theorem isTypeSound_iff (base : Option Path) (document : Toml.Table) :
    IsTypeSound (ofTable base document) ↔ ¬ Slips (written document) := by
  have hbroken {value : Toml.Value} (hwritten : written document = value)
      (hmembers : checkNames value = .error .unsuitable) (hslips : Slips value) :
      IsTypeSound (ofTable base document) ↔ ¬ Slips value :=
    isTypeSound_iff_of_broken (ofTable_of_checkNames_error (hwritten ▸ hmembers)) rfl hslips
  cases hwritten : written document with
  | string text => exact isTypeSound_iff_of_string hwritten
  | array elements => exact isTypeSound_iff_of_array hwritten
  | table entries => exact isTypeSound_iff_of_table hwritten
  | integer n => exact hbroken hwritten rfl (.integer n)
  | float x => exact hbroken hwritten rfl (.float x)
  | boolean b => exact hbroken hwritten rfl (.boolean b)
  | moment m => exact hbroken hwritten rfl (.moment m)

end Settings

/-! ### Machines -/

theorem Failure.ofFault_ne_incomparableLimit (fault : Fault) :
    ofFault fault ≠ .incomparableLimit := by
  unfold ofFault
  split <;> simp

namespace Machine

variable {machine : Machine}

theorem step_ne_incomparableLimit : machine.step.2 ≠ .error .incomparableLimit := by
  intro h
  rcases step_failure h with ⟨-, -, hbehind⟩ | hinstruction | hbroken
  · exact Failure.ofFault_ne_incomparableLimit _ hbehind.symm
  · generalize hfailure : Failure.incomparableLimit = failure at hinstruction
    cases hinstruction with
    | index | token => exact Failure.ofFault_ne_incomparableLimit _ hfailure.symm
    | overlong | brokenOutput | interrupt => contradiction
  · contradiction

theorem eq_incomparable_of_failure? {budget : Budget} {taken : Nat}
    (h : budget.failure? taken = some .incomparableLimit) : budget = .incomparable := by
  cases budget with
  | unlimited => contradiction
  | incomparable => rfl
  | limited limit =>
    rw [Budget.failure?] at h
    split at h
    · exact absurd (Option.some.inj h) (Failure.ofFault_ne_incomparableLimit _)
    · contradiction

/-- Only a limit that is no number fails for that reason. -/
theorem run_ne_incomparableLimit {budget : Budget} (hbudget : budget ≠ .incomparable) (fuel : Nat)
    (after : Machine) : machine.run fuel budget ≠ (after, some (.error .incomparableLimit)) := by
  intro hrun
  obtain ⟨n, -, -, hended, -⟩ := (runFrom_eq_some_iff fuel machine).mp hrun
  rcases (verdict_eq_error_iff _ _ _).mp hended with hstep | ⟨-, hfailure⟩
  · exact step_ne_incomparableLimit hstep
  · exact hbudget (eq_incomparable_of_failure? hfailure)

/-- A machine without truth values, now and after any number of steps, that never finds its limit to
be no number. -/
structure KeepsTypes (machine : Machine) (budget : Budget) : Prop where
  integers : ∀ n cell b, (machine.afterSteps n).registers.at? cell ≠ some (.bool b)
  comparable : ∀ fuel after,
    machine.run fuel budget ≠ (after, some (.error .incomparableLimit))

end Machine

namespace Settings

open Command (RunOptions run begin)

theorem HasDeclaredTypes.budget_ne {settings : Settings} (h : settings.HasDeclaredTypes) :
    settings.budget ≠ .incomparable := by
  unfold budget
  cases hlimit : settings.maxSteps with
  | none => simp
  | some value =>
    obtain ⟨n, rfl⟩ := h.maxSteps value hlimit
    simp

theorem HasDeclaredTypes.keepsTypes {settings : Settings} {files : Files} {input : TokenReader}
    {output : Output} {machine : Machine} (h : settings.HasDeclaredTypes)
    (hmachine : settings.machine files input output = .ok machine) :
    machine.KeepsTypes settings.budget where
  integers := by
    rcases settings.machine_cases files with ⟨refusal, hrefuses⟩ | ⟨program, hstart⟩
    · rw [hrefuses.machine_eq] at hmachine
      contradiction
    · rw [hstart] at hmachine
      obtain rfl := Except.ok.inj hmachine
      intro n cell b hbool
      obtain ⟨first, -, hfirst⟩ := (Machine.at?_eq_bool_iff _ n cell b).mp hbool
      rw [startOn, Machine.at?_start] at hfirst
      cases first with
      | acc => cases hfirst
      | register j =>
        obtain ⟨m, hm⟩ := h.registers _ (List.mem_of_getElem? hfirst)
        contradiction
  comparable := Machine.run_ne_incomparableLimit h.budget_ne

/-- A command line that names settings which are refused comes to no machine: nothing is read and
nothing written. -/
theorem run_of_refused {files : Files} {line : List String} {options : RunOptions} {path : Path}
    {text : String} {error : Error} (hparse : RunOptions.parse files line = .ok options)
    (hconfig : options.config = some path) (htext : files.text path = .ok text)
    (herror : parse text (some path.parent) = .error error) (fuel : Nat) (input : TokenReader) :
    run fuel files input line = some (.ofCrash (.settings (.invalid error)) []) := by
  have hload : load files path = .error (.invalid error) := by
    unfold load
    simp only [htext, herror]
    rfl
  have hsettings : options.settings files = .error (.invalid error) := by
    unfold RunOptions.settings
    rw [hconfig]
    simp only [hload]
    rfl
  unfold run begin
  simp only [hparse, hsettings]

theorem parse_of_error {text : String} {error : Toml.Error} (h : Toml.parse text = .error error)
    (base : Option Path) :
    ∃ refusal, parse text base = .error refusal ∧ (refusal.isVerdict = true ↔ error ≠ .nested) := by
  unfold parse
  rw [h]
  cases error with
  | malformed => exact ⟨.malformed, rfl, by simp [Error.isVerdict]⟩
  | nested => exact ⟨.nested, rfl, by simp [Error.isVerdict]⟩
  | overlong cause => exact ⟨.overlong cause, rfl, by simp [Error.isVerdict]⟩

theorem parse_of_ok {text : String} {document : Toml.Table} (h : Toml.parse text = .ok document)
    (base : Option Path) : parse text base = ofTable base document := by
  unfold parse
  rw [h]

/-- A text that can be read is refused by a verdict or makes settings of the declared types, exactly
if what it says about settings does not get around the checks. Names that are no settings never do:
the error shows all of them. No trace and no limit is ever looked at, so that a table is accepted or
not whatever these are. What is refused comes to no machine; where nothing has slipped, a machine
holds integers alone, however long it runs, and is never stopped by a limit that is no number. -/
theorem declared_types_hold_but_for_slips (text : String) (base : Option Path) :
    (∀ error, Toml.parse text = .error error →
      ∃ refusal, parse text base = .error refusal ∧ (refusal.isVerdict = true ↔ error ≠ .nested)) ∧
    (∀ document, Toml.parse text = .ok document →
      (IsTypeSound (parse text base) ↔ ¬ Slips (written document)) ∧
      (∀ settings, parse text base = .ok settings ↔
        ∃ entries, written document = .table entries ∧ Accepts base entries settings) ∧
      (∀ entries name, written document = .table entries → name ∈ entries.map Prod.fst →
        name ∉ names → ∃ unknown, AreUnknown (entries.map Prod.fst) unknown ∧ parse text base =
          .error (.unknown ("[" ++ ", ".intercalate (unknown.map Text.quoted) ++ "]"))) ∧
      ∀ settings, parse text base = .ok settings → ¬ Slips (written document) →
        ∀ files input output machine, settings.machine files input output = .ok machine →
          machine.KeepsTypes settings.budget) ∧
    ∀ files line options path error, RunOptions.parse files line = .ok options →
      options.config = some path → files.text path = .ok text →
      parse text (some path.parent) = .error error → ∀ fuel input,
        run fuel files input line = some (.ofCrash (.settings (.invalid error)) []) := by
  refine ⟨fun error herror ↦ parse_of_error herror base, fun document hdocument ↦ ?_,
    fun files line options path error hparse hconfig htext herror fuel input ↦
      run_of_refused hparse hconfig htext herror fuel input⟩
  rw [parse_of_ok hdocument base]
  refine ⟨isTypeSound_iff base document, ofTable_eq_ok_iff base document, ?_, ?_⟩
  · intro entries name hwritten hgiven hname
    obtain ⟨unknown, hare, herror⟩ := checkNames_of_unknown (members_table entries) hgiven hname
    exact ⟨unknown, hare, ofTable_of_checkNames_error (hwritten ▸ herror)⟩
  · intro settings hsettings hslips files input output machine hmachine
    have hsound := (isTypeSound_iff base document).mpr hslips
    rw [hsettings] at hsound
    exact HasDeclaredTypes.keepsTypes hsound hmachine

/-- A text as the limit slips, a name that is no setting does not, neither by itself nor on a
command line, and a machine under settings of the declared types holds integers alone. -/
theorem declared_types_of_text_as_limit_and_of_unknown_name :
    let loose := "[machine]\nmax_steps = \"many\"\n"
    let strange := "[machine]\nbogus = 1\n"
    let sound := "[machine]\nregisters = [1]\nmax_steps = 5\nsource = \"halt\"\n"
    let files : Files :=
      { bytes := fun path ↦ .ok (if path = .ofText "halt" then "hlt" else strange).toUTF8.toList }
    (∃ document, Toml.parse loose = .ok document ∧ Slips (written document) ∧
      ¬ IsTypeSound (parse loose none)) ∧
    (∃ unknown : List String, "bogus" ∈ unknown ∧ parse strange none =
      .error (.unknown ("[" ++ ", ".intercalate (unknown.map Text.quoted) ++ "]"))) ∧
    (∃ error, run 0 files {} ["-c", "c.toml"] = some (.ofCrash (.settings (.invalid error)) [])) ∧
    (∃ refusal, parse "[" none = .error refusal ∧ refusal.isVerdict = true) ∧
    ∃ settings machine, parse sound none = .ok settings ∧
      settings.machine files {} {} = .ok machine ∧ machine.KeepsTypes settings.budget := by
  intro loose strange sound files
  have hstrange (base : Option Path) : ∃ unknown : List String, "bogus" ∈ unknown ∧
      parse strange base =
        .error (.unknown ("[" ++ ", ".intercalate (unknown.map Text.quoted) ++ "]")) := by
    have hnames : ((Toml.parse strange).toOption.bind fun document ↦
        (entries? (written document)).map (·.map Prod.fst)) = some ["bogus"] := by
      decide +kernel
    obtain ⟨document, hdocument, hnames⟩ := Option.bind_eq_some_iff.mp hnames
    obtain ⟨entries, hentries, hnames⟩ := Option.map_eq_some_iff.mp hnames
    obtain ⟨-, -, hunknown, -⟩ := (declared_types_hold_but_for_slips strange base).2.1 document
      (Command.eq_ok_of_toOption hdocument)
    have hgiven : "bogus" ∈ entries.map Prod.fst := hnames ▸ List.mem_singleton_self "bogus"
    obtain ⟨unknown, hare, herror⟩ :=
      hunknown entries "bogus" (entries?_eq_some_iff.mp hentries) hgiven (by decide)
    exact ⟨unknown, (hare.mem_iff "bogus").mpr ⟨hgiven, by decide⟩, herror⟩
  refine ⟨?loose, hstrange none, ?refused, ?malformed, ?sound⟩
  case loose =>
    have hread : (Toml.parse loose).toOption.isSome = true := by decide +kernel
    have hbudget : (parse loose none).toOption.map budget = some .incomparable := by
      decide +kernel
    obtain ⟨document, hdocument⟩ := Option.isSome_iff_exists.mp hread
    obtain ⟨settings, hsettings, hbudget⟩ := Option.map_eq_some_iff.mp hbudget
    have hdocument := Command.eq_ok_of_toOption hdocument
    have hunsound : ¬ IsTypeSound (parse loose none) := by
      rw [Command.eq_ok_of_toOption hsettings]
      exact fun htypes ↦ HasDeclaredTypes.budget_ne htypes hbudget
    obtain ⟨hiff, -⟩ := (declared_types_hold_but_for_slips loose none).2.1 document hdocument
    exact ⟨document, hdocument, by_contra fun hslips ↦ hunsound (hiff.mpr hslips), hunsound⟩
  case refused =>
    have hconfig : ((RunOptions.parse files ["-c", "c.toml"]).toOption.bind fun options ↦
        options.config) = some (.ofText "c.toml") := by
      decide +kernel
    obtain ⟨options, hoptions, hconfig⟩ := Option.bind_eq_some_iff.mp hconfig
    have htext : files.text (.ofText "c.toml") = .ok strange := by decide +kernel
    obtain ⟨unknown, -, herror⟩ := hstrange (some (Path.ofText "c.toml").parent)
    obtain ⟨-, -, hrefused⟩ := declared_types_hold_but_for_slips strange none
    exact ⟨_, hrefused files _ options _ _ (Command.eq_ok_of_toOption hoptions) hconfig htext
      herror 0 {}⟩
  case malformed =>
    have hunread : (Toml.parse "[").map (fun _ ↦ ()) = .error .malformed := by decide +kernel
    obtain ⟨hrefused, -⟩ := declared_types_hold_but_for_slips "[" none
    cases hread : Toml.parse "[" with
    | ok document =>
      rw [hread] at hunread
      contradiction
    | error error =>
      rw [hread] at hunread
      cases hunread
      obtain ⟨refusal, hrefusal, hiff⟩ := hrefused .malformed hread
      exact ⟨refusal, hrefusal, hiff.mpr (by decide)⟩
  case sound =>
    have hread : (Toml.parse sound).toOption.isSome = true := by decide +kernel
    have hfields : (parse sound none).toOption.map (fun settings ↦ (settings.registers,
        registerValue? settings.trace, settings.maxSteps.bind registerValue?)) =
          some ([.int 1], some (.bool false), some (.int 5)) := by
      decide +kernel
    have hstarts : ((parse sound none).toOption.bind fun settings ↦
        (settings.machine files {} {}).toOption).isSome = true := by
      decide +kernel
    obtain ⟨document, hdocument⟩ := Option.isSome_iff_exists.mp hread
    obtain ⟨settings, hsettings, hfields⟩ := Option.map_eq_some_iff.mp hfields
    rw [hsettings] at hstarts
    obtain ⟨machine, hmachine⟩ := Option.isSome_iff_exists.mp hstarts
    have hsettings := Command.eq_ok_of_toOption hsettings
    have hmachine := Command.eq_ok_of_toOption hmachine
    obtain ⟨hiff, -, -, hkeeps⟩ := (declared_types_hold_but_for_slips sound none).2.1 document
      (Command.eq_ok_of_toOption hdocument)
    have hsound : IsTypeSound (parse sound none) := by
      rw [hsettings]
      simp only [Prod.mk.injEq] at hfields
      obtain ⟨hregisters, htrace, hmaxSteps⟩ := hfields
      refine ⟨?_, ⟨false, (registerValue?_eq_some_iff _ _).mp htrace⟩, fun value hvalue ↦ ?_⟩
      · rw [hregisters]
        exact fun value hmem ↦ ⟨1, List.mem_singleton.mp hmem⟩
      · rw [hvalue] at hmaxSteps
        exact ⟨5, (registerValue?_eq_some_iff _ _).mp hmaxSteps⟩
    exact ⟨settings, machine, hsettings, hmachine,
      hkeeps settings hsettings (hiff.mp hsound) files {} {} machine hmachine⟩

end Settings

end Accumulator
