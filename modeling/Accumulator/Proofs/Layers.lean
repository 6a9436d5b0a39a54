import Accumulator.Command.Run
import Accumulator.Proofs.Attempts

/-!
Settings in layers. Each field of the settings is that of the last update that gives it, whatever
the other fields are (`Settings.foldl_update`); a settings file is one such update
(`Settings.exists_gives_of_load`), and the options of a command line are another on top of it.
-/

set_option autoImplicit false
set_option relaxedAutoImplicit false

namespace Accumulator

namespace Settings

/-! ### Updates in a row -/

section

variable {α β : Type} (given? : Update → Option α)

/-- A field that an update replaces if it gives the field is, after updates in a row, that of the
last which gives it. -/
theorem foldl_update (field : Settings → β) (make : α → β)
    (hupdate : ∀ settings changes,
      field (settings.update changes) = ((given? changes).map make).getD (field settings))
    (updates : List Update) (settings : Settings) :
    field (updates.foldl update settings) =
      ((updates.filterMap given?).getLast?.map make).getD (field settings) := by
  induction updates generalizing settings with
  | nil => rfl
  | cons changes updates ih =>
    rw [List.foldl_cons, ih, hupdate]
    cases hgiven : given? changes with
    | none => rw [List.filterMap_cons_none hgiven]; rfl
    | some value =>
      rw [List.filterMap_cons_some hgiven, List.getLast?_cons]
      cases (updates.filterMap given?).getLast? <;> rfl

theorem foldl_update_getD (field : Settings → α)
    (hupdate : ∀ settings changes,
      field (settings.update changes) = (given? changes).getD (field settings))
    (updates : List Update) (settings : Settings) :
    field (updates.foldl update settings) =
      (updates.filterMap given?).getLast?.getD (field settings) := by
  have h := foldl_update given? field id
    (fun settings changes ↦ by rw [Option.map_id]; exact hupdate ..) updates settings
  rwa [Option.map_id] at h

theorem foldl_update_orElse (field : Settings → Option α)
    (hupdate : ∀ settings changes,
      field (settings.update changes) = (given? changes <|> field settings))
    (updates : List Update) (settings : Settings) :
    field (updates.foldl update settings) =
      ((updates.filterMap given?).getLast? <|> field settings) := by
  rw [foldl_update given? field some]
  · cases (updates.filterMap given?).getLast? <;> rfl
  · intro settings changes
    rw [hupdate]
    cases given? changes <;> rfl

end

theorem update_twice (settings : Settings) (changes : Update) :
    (settings.update changes).update changes = settings.update changes := by
  rcases changes with ⟨r, s, t, m, v⟩
  cases r <;> cases s <;> cases t <;> cases m <;> cases v <;> rfl

/-! ### Settings files -/

/-- What a settings file gives: the values of its table `machine`. -/
inductive Gives (files : Files) (path : Path) : Update → Prop
  | intro {text : String} {document entries : Toml.Table} {registers : Option (List Value)}
      {source : Option Path} (htext : files.text path = .ok text)
      (hdocument : Toml.parse text = .ok document)
      (hmachine : (document.find? "machine").getD (.table []) = .table entries)
      (hregisters : (entries.find? "registers").mapM registersOf = .ok registers)
      (hsource : (entries.find? "source").mapM (sourceOf (some path.parent)) = .ok source) :
      Gives files path {
        registers, source, trace := entries.find? "trace", maxSteps := entries.find? "max_steps" }

/-- A settings file that is accepted is an update of the defaults. -/
theorem exists_gives_of_load {files : Files} {path : Path} {settings : Settings}
    (h : load files path = .ok settings) :
    ∃ given, Gives files path given ∧ settings = ({} : Settings).update given := by
  unfold load at h
  split at h
  · contradiction
  rename_i text htext
  unfold parse at h
  split at h
  case h_2 | h_3 | h_4 => contradiction
  rename_i document hdocument
  cases htable : ofTable (some path.parent) document with
  | error error =>
    rw [htable] at h
    contradiction
  | ok made =>
    rw [htable] at h
    obtain rfl : made = settings := Except.ok.inj h
    obtain ⟨-, -, hfields⟩ := bind_eq_ok_iff.mp htable
    split at hfields
    · rename_i entries hmachine
      obtain ⟨registers, hregisters, hfields⟩ := bind_eq_ok_iff.mp hfields
      obtain ⟨source, hsource, hfields⟩ := bind_eq_ok_iff.mp hfields
      exact ⟨_, .intro htext hdocument hmachine hregisters hsource, (Except.ok.inj hfields).symm⟩
    · contradiction

end Settings

namespace Command

/-! ### Options over a file -/

/-- Settings whose fields are those of the options where these give them, else those that `given`
gives, else the defaults. Options without registers give none, and a trace is only switched on. -/
structure RunOptions.LaidOver (options : RunOptions) (given : Settings.Update)
    (settings : Settings) : Prop where
  registers : options.registers ≠ [] → settings.registers = options.registers.map .int
  otherRegisters : options.registers = [] →
    settings.registers = given.registers.getD (List.replicate 8 (.int 0))
  source : settings.source = (options.source <|> given.source)
  maxSteps : settings.maxSteps = (options.maxSteps.map .integer <|> given.maxSteps)
  isTraced : settings.isTraced = true ↔
    options.trace = true ∨ ∃ value, given.trace = some value ∧ value.isTrue = true
  verbose : settings.verbose = options.verbose

theorem RunOptions.laidOver_update (options : RunOptions) (given : Settings.Update) :
    options.LaidOver given ((({} : Settings).update given).update options.changes) where
  registers := by
    intro hsome
    have hgiven : options.changes.registers = some (options.registers.map .int) :=
      if_neg (by rwa [List.isEmpty_iff])
    rw [Settings.update, hgiven]
    rfl
  otherRegisters := by
    intro hnone
    have hgiven : options.changes.registers = none := if_pos (by rw [hnone]; rfl)
    rw [Settings.update, hgiven]
    rfl
  source := by
    change (options.source <|> given.source <|> none) = (options.source <|> given.source)
    cases options.source <;> cases given.source <;> rfl
  maxSteps := by
    change (options.maxSteps.map Toml.Value.integer <|> given.maxSteps <|> none) =
      (options.maxSteps.map .integer <|> given.maxSteps)
    cases options.maxSteps <;> cases given.maxSteps <;> rfl
  isTraced := by
    cases htrace : options.trace with
    | true =>
      have hgiven : options.changes.trace = some (.boolean true) := if_pos htrace
      rw [Settings.isTraced, Settings.update, hgiven]
      exact iff_of_true rfl (.inl rfl)
    | false =>
      have hgiven : options.changes.trace = none := if_neg (ne_true_of_eq_false htrace)
      rw [Settings.isTraced, Settings.update, hgiven]
      cases hvalue : given.trace with
      | none => simp [Settings.update, hvalue, Toml.Value.isTrue]
      | some value => simp [Settings.update, hvalue]
  verbose := rfl

/-- Every field of settings that are updated from the defaults is the last one given or the default,
so that updates can be put together and done again. The settings of a command are such layers: the
defaults, the file if there is one, and the options. -/
theorem settings_layer_field_by_field :
    (∀ updates : List Settings.Update,
      let settings := updates.foldl Settings.update {}
      settings.registers =
          ((updates.filterMap (·.registers)).getLast?).getD (List.replicate 8 (.int 0)) ∧
        settings.source = (updates.filterMap (·.source)).getLast? ∧
        settings.trace = ((updates.filterMap (·.trace)).getLast?).getD (.boolean false) ∧
        settings.maxSteps = (updates.filterMap (·.maxSteps)).getLast? ∧
        settings.verbose = ((updates.filterMap (·.verbose)).getLast?).getD false) ∧
    (∀ (settings : Settings) (first second : Settings.Update),
      (settings.update first).update second = settings.update (first ++ second)) ∧
    (∀ (settings : Settings) (changes : Settings.Update),
      (settings.update changes).update changes = settings.update changes) ∧
    ∀ (files : Files) (options : RunOptions),
      (options.config = none → ∃ settings, options.settings files = .ok settings ∧
        options.LaidOver {} settings) ∧
      ∀ path loaded, options.config = some path → Settings.load files path = .ok loaded →
        ∃ given settings, Settings.Gives files path given ∧
          options.settings files = .ok settings ∧ options.LaidOver given settings := by
  refine ⟨fun updates ↦ ⟨?registers, ?source, ?trace, ?maxSteps, ?verbose⟩,
    fun settings first second ↦ (settings.update_append first second).symm,
    Settings.update_twice, fun files options ↦ ⟨?options, ?file⟩⟩
  case registers =>
    exact Settings.foldl_update_getD (·.registers) (·.registers) (fun _ _ ↦ rfl) updates {}
  case trace =>
    exact Settings.foldl_update_getD (·.trace) (·.trace) (fun _ _ ↦ rfl) updates {}
  case verbose =>
    exact Settings.foldl_update_getD (·.verbose) (·.verbose) (fun _ _ ↦ rfl) updates {}
  case source =>
    rw [Settings.foldl_update_orElse (·.source) (·.source) (fun _ _ ↦ rfl) updates {}]
    cases (updates.filterMap (·.source)).getLast? <;> rfl
  case maxSteps =>
    rw [Settings.foldl_update_orElse (·.maxSteps) (·.maxSteps) (fun _ _ ↦ rfl) updates {}]
    cases (updates.filterMap (·.maxSteps)).getLast? <;> rfl
  case options =>
    intro hconfig
    refine ⟨_, ?_, options.laidOver_update {}⟩
    rw [RunOptions.settings, hconfig]
    rfl
  case file =>
    intro path loaded hconfig hload
    obtain ⟨given, hgives, rfl⟩ := Settings.exists_gives_of_load hload
    refine ⟨given, _, hgives, ?_, options.laidOver_update given⟩
    rw [RunOptions.settings, hconfig]
    simp only [hload]
    rfl

/-- A file that gives no registers and the limit 0 has given both, unlike no file. -/
theorem settings_layer_over_empty_values :
    let files : Files :=
      { bytes := fun _ ↦ .ok "[machine]\nregisters = []\nmax_steps = 0\n".toUTF8.toList }
    let options : RunOptions :=
      { verbose := false, config := none, registers := [], trace := false, maxSteps := none,
        source := none }
    (∃ settings, options.settings files = .ok settings ∧
      settings.registers = List.replicate 8 (.int 0)) ∧
    ∃ given settings, Settings.Gives files (.ofText "c.toml") given ∧
      { options with config := some (.ofText "c.toml") }.settings files = .ok settings ∧
      { options with config := some (.ofText "c.toml") }.LaidOver given settings ∧
      settings.registers = [] ∧ settings.maxSteps.isSome = true := by
  intro files options
  obtain ⟨-, -, -, hcommand⟩ := settings_layer_field_by_field
  constructor
  · obtain ⟨settings, hsettings, hlaid⟩ := (hcommand files options).1 rfl
    exact ⟨settings, hsettings, hlaid.otherRegisters rfl⟩
  · have hloads : (Settings.load files (.ofText "c.toml")).toOption.isSome = true := by
      decide +kernel
    have hvalues : (({ options with config := some (.ofText "c.toml") }.settings files).toOption.map
        fun settings : Settings ↦ (settings.registers, settings.maxSteps.isSome)) =
          some ([], true) := by
      decide +kernel
    cases hload : Settings.load files (.ofText "c.toml") with
    | error error =>
      rw [hload] at hloads
      contradiction
    | ok loaded =>
      obtain ⟨given, settings, hgives, hsettings, hlaid⟩ :=
        (hcommand files { options with config := some (.ofText "c.toml") }).2 _ loaded rfl hload
      rw [hsettings] at hvalues
      obtain ⟨hregisters, hmaxSteps⟩ := Prod.mk.inj (Option.some.inj hvalues)
      exact ⟨given, settings, hgives, hsettings, hlaid, hregisters, hmaxSteps⟩

end Command

end Accumulator
