import Accumulator.Proofs.Names
import Mathlib.Data.List.Basic

/-!
Tables of settings. What becomes of one is told by a relation (`Settings.Loaded`): its names are
looked at first, then its registers, then its source, and the first that is wrong is what the error
is about. So exactly those tables are accepted that hold known names, integers or truth values as
registers and a text as the source (`Settings.ofTable_eq_ok_iff`), whatever their trace and their
limit are.
-/

set_option autoImplicit false
set_option relaxedAutoImplicit false

namespace Accumulator

namespace Settings

variable {base : Option Path} {document entries : Toml.Table} {value : Toml.Value}
  {values : List Value} {settings : Settings}

/-! ### Fields -/

/-- A register's value as it is written. -/
def literal : Value → Toml.Value
  | .int n => .integer n
  | .bool b => .boolean b

/-- The registers that are written, or those that there are otherwise. -/
inductive TakesRegisters : Option Toml.Value → List Value → Prop
  | default : TakesRegisters none (List.replicate 8 (.int 0))
  | given (values : List Value) : TakesRegisters (some (.array (values.map literal))) values

/-- The source that is written, if there is one, as seen from the directory of the document. -/
inductive TakesSource (base : Option Path) : Option Toml.Value → Option Path → Prop
  | default : TakesSource base none none
  | given (text : String) : TakesSource base (some (.string text))
      (some ((base.map (Path.ofText text).seenFrom).getD (Path.ofText text)))

theorem registerValue?_eq_some_iff (written : Toml.Value) (value : Value) :
    registerValue? written = some value ↔ written = literal value := by
  cases value <;> cases written <;> simp [registerValue?, literal]

theorem mapM_registerValue?_iff (elements : List Toml.Value) (values : List Value) :
    elements.mapM registerValue? = some values ↔ elements = values.map literal := by
  induction elements generalizing values with
  | nil => cases values <;> simp
  | cons element rest ih =>
    simp only [List.mapM_cons, Option.bind_eq_bind, Option.bind_eq_some_iff, Option.pure_def,
      Option.some.injEq]
    constructor
    · rintro ⟨first, hfirst, others, hothers, rfl⟩
      rw [List.map_cons, (registerValue?_eq_some_iff element first).mp hfirst,
        (ih others).mp hothers]
    · intro h
      cases values with
      | nil => contradiction
      | cons value others =>
        obtain ⟨hfirst, hrest⟩ := List.cons.inj h
        exact ⟨value, (registerValue?_eq_some_iff element value).mpr hfirst, others,
          (ih others).mpr hrest, rfl⟩

theorem literal_injective : Function.Injective literal := by
  intro first second h
  cases first <;> cases second <;> cases h <;> rfl

theorem TakesRegisters.unique {given : Option Toml.Value} {others : List Value}
    (h : TakesRegisters given values) (hothers : TakesRegisters given others) :
    values = others := by
  generalize hsame : given = same at hothers
  cases h with
  | default =>
    subst hsame
    cases hothers
    rfl
  | given =>
    cases hothers with
    | default => contradiction
    | given =>
      exact List.map_injective_iff.mpr literal_injective
        (Toml.Value.array.inj (Option.some.inj hsame))

/-- The error about registers that are none. -/
def registersError (value : Toml.Value) : Error :=
  match value.text with
  | .ok text => .registers text
  | .error cause => .ofUnshown cause

theorem isVerdict_registersError_iff (value : Toml.Value) :
    (registersError value).isVerdict = true ↔ value.text ≠ .error .nested := by
  unfold registersError
  rcases value.text with (_ | cause) | text <;> simp [Error.ofUnshown, Error.isVerdict]

theorem registersOf_of_wrong (hwrong : ∀ values, ¬ TakesRegisters (some value) values) :
    registersOf value = .error (registersError value) := by
  rcases htext : value.text with cause | text <;> cases value with
  | array elements =>
    have hnone : elements.mapM registerValue? = none := by
      rw [Option.eq_none_iff_forall_ne_some]
      intro values hvalues
      rw [(mapM_registerValue?_iff elements values).mp hvalues] at hwrong
      exact hwrong values (.given values)
    simp only [registersOf, registersError, hnone, htext]
  | _ => simp only [registersOf, registersError, htext]

/-- Registers are taken, or refused with their text. -/
theorem registersOf_cases (value : Toml.Value) :
    (∃ values, TakesRegisters (some value) values ∧ registersOf value = .ok values) ∨
      (∀ values, ¬ TakesRegisters (some value) values) ∧
        registersOf value = .error (registersError value) := by
  by_cases htaken : ∃ values, TakesRegisters (some value) values
  · obtain ⟨values, hvalues⟩ := htaken
    refine Or.inl ⟨values, hvalues, ?_⟩
    cases hvalues with
    | given =>
      unfold registersOf
      simp only [(mapM_registerValue?_iff _ _).mpr rfl]
  · rw [not_exists] at htaken
    exact Or.inr ⟨htaken, registersOf_of_wrong htaken⟩

/-! ### What becomes of a table -/

/-- What a document says about settings. If it says nothing, that counts as an empty table. -/
def written (document : Toml.Table) : Toml.Value :=
  (document.find? "machine").getD (.table [])

/-- The entries of a table. -/
def entries? : Toml.Value → Option Toml.Table
  | .table entries => some entries
  | _ => none

theorem entries?_eq_some_iff : entries? value = some entries ↔ value = .table entries := by
  cases value <;> simp [entries?]

/-- Every name in a table is one of a setting. -/
def AllKnown (entries : Toml.Table) : Prop := ∀ name ∈ entries.map Prod.fst, name ∈ names

/-- The settings that a table makes. Its trace and its limit are taken as they are. -/
structure Accepts (base : Option Path) (entries : Toml.Table) (settings : Settings) : Prop where
  known : AllKnown entries
  registers : TakesRegisters (entries.find? "registers") settings.registers
  source : TakesSource base (entries.find? "source") settings.source
  trace : settings.trace = (entries.find? "trace").getD (.boolean false)
  maxSteps : settings.maxSteps = entries.find? "max_steps"
  verbose : settings.verbose = false

/-- What becomes of a table. Its names are looked at first, then its registers, then its source. -/
inductive Loaded (base : Option Path) (entries : Toml.Table) : Except Error Settings → Prop
  | unknown {name : String} {unknown : List String} (hgiven : name ∈ entries.map Prod.fst)
      (hname : name ∉ names) (hare : AreUnknown (entries.map Prod.fst) unknown) :
      Loaded base entries
        (.error (.unknown ("[" ++ ", ".intercalate (unknown.map Text.quoted) ++ "]")))
  | registers {value : Toml.Value} (hknown : AllKnown entries)
      (hfind : entries.find? "registers" = some value)
      (hwrong : ∀ values, ¬ TakesRegisters (some value) values) :
      Loaded base entries (.error (registersError value))
  | source {values : List Value} {value : Toml.Value} (hknown : AllKnown entries)
      (hregisters : TakesRegisters (entries.find? "registers") values)
      (hfind : entries.find? "source" = some value) (hwrong : ∀ text, value ≠ .string text) :
      Loaded base entries (.error .unsuitable)
  | accepted {settings : Settings} (h : Accepts base entries settings) :
      Loaded base entries (.ok settings)

theorem members_table (entries : Toml.Table) :
    members (.table entries) = .ok ((entries.map Prod.fst).map .string) := by
  rw [List.map_map]
  rfl

theorem members_string (text : String) :
    members (.string text) = .ok ((text.toList.map String.singleton).map .string) := by
  rw [List.map_map]
  rfl

theorem ofTable_of_checkNames_error {error : Error}
    (h : checkNames (written document) = .error error) : ofTable base document = .error error := by
  change Except.bind (checkNames (written document)) _ = _
  rw [h]
  rfl

theorem ofTable_of_no_table (hwritten : written document = value)
    (hchecked : checkNames value = .ok ()) (hwrong : ∀ entries, value ≠ .table entries) :
    ofTable base document = .error .noTable := by
  unfold ofTable
  rw [show (document.find? "machine").getD (.table []) = value from hwritten]
  change Except.bind (checkNames value) _ = _
  rw [hchecked]
  cases value with
  | table entries => exact absurd rfl (hwrong entries)
  | _ => rfl

theorem ofTable_of_known (hwritten : written document = .table entries)
    (hchecked : checkNames (.table entries) = .ok ()) :
    ofTable base document =
      ((entries.find? "registers").mapM registersOf >>= fun registers ↦
        (entries.find? "source").mapM (sourceOf base) >>= fun source ↦
          .ok (({} : Settings).update {
            registers, source, trace := entries.find? "trace",
            maxSteps := entries.find? "max_steps" })) := by
  unfold ofTable
  rw [show (document.find? "machine").getD (.table []) = .table entries from hwritten]
  change Except.bind (checkNames (.table entries)) _ = _
  rw [hchecked]
  rfl

/-- The registers in force once those of a table are taken. -/
theorem registers_cases (entries : Toml.Table) :
    (∃ given, (entries.find? "registers").mapM registersOf = .ok given ∧
        TakesRegisters (entries.find? "registers") (given.getD (List.replicate 8 (.int 0)))) ∨
      ∃ value, entries.find? "registers" = some value ∧
        (∀ values, ¬ TakesRegisters (some value) values) ∧
        (entries.find? "registers").mapM registersOf = .error (registersError value) := by
  cases hfind : entries.find? "registers" with
  | none => exact Or.inl ⟨none, rfl, .default⟩
  | some value =>
    rcases registersOf_cases value with ⟨values, htaken, hvalues⟩ | ⟨hwrong, herror⟩
    · refine Or.inl ⟨some values, ?_, htaken⟩
      rw [Option.mapM_some, hvalues]
      rfl
    · refine Or.inr ⟨value, rfl, hwrong, ?_⟩
      rw [Option.mapM_some, herror]
      rfl

theorem source_cases (base : Option Path) (entries : Toml.Table) :
    (∃ given, (entries.find? "source").mapM (sourceOf base) = .ok given ∧
        TakesSource base (entries.find? "source") given) ∨
      ∃ value, entries.find? "source" = some value ∧ (∀ text, value ≠ .string text) ∧
        (entries.find? "source").mapM (sourceOf base) = .error .unsuitable := by
  cases hfind : entries.find? "source" with
  | none => exact Or.inl ⟨none, rfl, .default⟩
  | some value =>
    cases value with
    | string text => exact Or.inl ⟨_, rfl, .given text⟩
    | _ => exact Or.inr ⟨_, rfl, by simp, rfl⟩

theorem checkNames_of_allKnown (h : AllKnown entries) : checkNames (.table entries) = .ok () := by
  have hchecked := checked_checkNames (members_table entries)
  have hname : ∀ member ∈ (entries.map Prod.fst).map Toml.Value.string, isName member = true := by
    intro member hmem
    obtain ⟨name, hgiven, rfl⟩ := List.mem_map.mp hmem
    exact isName_iff.mpr ⟨name, h name hgiven, rfl⟩
  generalize checkNames (.table entries) = result at hchecked ⊢
  cases hchecked with
  | unordered hmem hrank =>
    obtain ⟨name, -, rfl⟩ := List.mem_map.mp hmem
    contradiction
  | unlike ha hb hnamea =>
    rw [hname _ ha] at hnamea
    contradiction
  | known => rfl
  | unknown hmem hstranger =>
    rw [hname _ hmem] at hstranger
    contradiction

theorem TakesSource.unique {given : Option Toml.Value} {source other : Option Path}
    (h : TakesSource base given source) (hother : TakesSource base given other) :
    source = other := by
  cases h <;> cases hother <;> rfl

theorem not_takesSource {source : Option Path} (hfind : entries.find? "source" = some value)
    (hwrong : ∀ text, value ≠ .string text) :
    ¬ TakesSource base (entries.find? "source") source := by
  rw [hfind]
  rintro ⟨⟩
  exact hwrong _ rfl

theorem Accepts.unique {other : Settings} (h : Accepts base entries settings)
    (hother : Accepts base entries other) : settings = other := by
  have hregisters := h.registers.unique hother.registers
  have hsource := h.source.unique hother.source
  have htrace := h.trace.trans hother.trace.symm
  have hmaxSteps := h.maxSteps.trans hother.maxSteps.symm
  have hverbose := h.verbose.trans hother.verbose.symm
  cases settings
  cases other
  simp_all

theorem loaded_ofTable (hwritten : written document = .table entries) :
    Loaded base entries (ofTable base document) := by
  by_cases hknown : AllKnown entries
  · rw [ofTable_of_known hwritten (checkNames_of_allKnown hknown)]
    rcases registers_cases entries with ⟨registers, hregisters, htaken⟩ |
      ⟨value, hfind, hwrong, herror⟩
    · rw [hregisters]
      rcases source_cases base entries with ⟨source, hsource, hseen⟩ |
        ⟨value, hfind, hwrong, herror⟩
      · rw [hsource]
        exact .accepted {
          known := hknown
          registers := htaken
          source := by
            cases source <;> exact hseen
          trace := rfl
          maxSteps := by
            cases entries.find? "max_steps" <;> rfl
          verbose := rfl }
      · rw [herror]
        exact .source hknown htaken hfind hwrong
    · rw [herror]
      exact .registers hknown hfind hwrong
  · simp only [AllKnown, not_forall] at hknown
    obtain ⟨name, hgiven, hname⟩ := hknown
    obtain ⟨unknown, hare, herror⟩ := checkNames_of_unknown (members_table entries) hgiven hname
    rw [ofTable_of_checkNames_error (hwritten ▸ herror)]
    exact .unknown hgiven hname hare

theorem ofTable_ne_ok_of_no_table (hwrong : ∀ entries, written document ≠ .table entries) :
    ofTable base document ≠ .ok settings := by
  cases hchecked : checkNames (written document) with
  | error error =>
    rw [ofTable_of_checkNames_error hchecked]
    exact nofun
  | ok known =>
    rw [ofTable_of_no_table rfl hchecked hwrong]
    exact nofun

/-- Exactly the tables that hold known names, integers or truth values as registers and a text as
the source are accepted. -/
theorem ofTable_eq_ok_iff (base : Option Path) (document : Toml.Table) (settings : Settings) :
    ofTable base document = .ok settings ↔
      ∃ entries, written document = .table entries ∧ Accepts base entries settings := by
  constructor
  · intro h
    by_cases htable : ∃ entries, written document = .table entries
    · obtain ⟨entries, hwritten⟩ := htable
      have hloaded : Loaded base entries (ofTable base document) := loaded_ofTable hwritten
      rw [h] at hloaded
      cases hloaded with
      | accepted haccepts => exact ⟨entries, hwritten, haccepts⟩
    · rw [not_exists] at htable
      exact absurd h (ofTable_ne_ok_of_no_table htable)
  · rintro ⟨entries, hwritten, haccepts⟩
    have hloaded : Loaded base entries (ofTable base document) := loaded_ofTable hwritten
    generalize ofTable base document = result at hloaded
    cases hloaded with
    | unknown hgiven hname => exact absurd (haccepts.known _ hgiven) hname
    | registers _ hfind hwrong =>
      have hregisters := haccepts.registers
      rw [hfind] at hregisters
      exact absurd hregisters (hwrong _)
    | source _ _ hfind hwrong => exact absurd haccepts.source (not_takesSource hfind hwrong)
    | accepted hother => rw [hother.unique haccepts]

end Settings

end Accumulator
