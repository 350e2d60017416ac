import MutantSieve.Proofs.FileTree
import MutantSieve.Proofs.Scan
import MutantSieve.Proofs.Success
import MutantSieve.Proofs.Told

/-!
# Outcomes of runs

A run either goes through all its stages and then writes one text, or it stops with an error and
leaves nothing behind. Where a configuration is loaded and a variable of the environment is torn,
not even the error is told.
-/

set_option autoImplicit false

namespace MutantSieve.CommandLine.Program

variable {w : World} {i : Invocation} {e : Error}

def target (i : Invocation) : String := Path.join i.path InputSet.configName

/-- A variable of the environment is torn, and the environment is read: the command needs a
configuration, and the file named for it, if there is one, exists. -/
structure BrokenOff (w : World) (i : Invocation) : Prop where
  configured : ∀ force, i.command ≠ .init force
  named : ∀ path, i.config = some path → w.files.exists? path = true
  torn : Config.Torn w.environment

theorem loadConfig_torn (h : BrokenOff w i) : loadConfig w i = .error (.config .tornText) := by
  rw [loadConfig_eq, map_eq_error_iff, baseConfig]
  split
  · next path given =>
    rw [Config.fromFile, if_pos (h.named path given)]
    exact Config.withEnvironment_torn h.torn _
  · exact Config.withEnvironment_torn h.torn _

theorem loadConfig_told (configured : ∀ force, i.command ≠ .init force) (h : ¬ BrokenOff w i)
    (failed : loadConfig w i = .error e) : e.Told := by
  have whole (named : ∀ path, i.config = some path → w.files.exists? path = true) :
      ¬ Config.Torn w.environment := fun torn => h ⟨configured, named, torn⟩
  rw [loadConfig_eq, map_eq_error_iff, baseConfig] at failed
  split at failed
  · next path given =>
    rw [Config.fromFile] at failed
    split at failed
    · next present =>
      have named : ∀ other, i.config = some other → w.files.exists? other = true := by
        intro other given'
        rw [given, Option.some.injEq] at given'
        exact given' ▸ present
      apply Config.withEnvironment_told (whole named) _ failed
      intro e' unreadable
      exact Config.readFile_told (map_eq_error_iff.mp unreadable)
    · cases failed
      rfl
  · next absent =>
    apply Config.withEnvironment_told (whole (by simp [absent])) _ failed
    intro e' unreadable
    exact Config.projectLayers_told unreadable

inductive Succeeds (w : World) (i : Invocation) : Outcome → Prop where
  | listed (toggles : List String) (c : Config) (list : List FeatureStatus) :
      i.command = .features toggles → loadConfig w i = .ok c →
      statuses (i.command.extend c) = .ok list →
      Succeeds w i
        { code := 0, output := Report.features list (i.format.getD c.format), files := w.files }
  | filtered (inputs toggles exclude : List String) (hideKept : Bool) (c : Config)
      (a : Analysis) :
      i.command = .filter inputs toggles exclude hideKept → loadConfig w i = .ok c →
      Filters w (i.command.extend c) inputs a →
      Succeeds w i
        { code := 0, output := a.report (i.format.getD c.format), files := w.files }
  | initialized (force : Bool) (place : List String) (entries : List (String × FileNode))
      (files : FileTree) :
      i.command = .init force → w.files.exists? (target i) = false ∨ force = true →
      w.files.find i.path = .folder place entries →
      w.files.write (target i) Config.defaultText = .ok files →
      w.files.Gains Config.defaultText.toUTF8 (place ++ [InputSet.configName]) files →
      Succeeds w i
        { code := 0
          output := "Wrote " ++ target i ++ "\n"
          written := some (target i, Config.defaultText)
          files := files }

inductive Fails (w : World) (i : Invocation) (e : Error) : Prop where
  | configuring : (∀ force, i.command ≠ .init force) → loadConfig w i = .error e → Fails w i e
  | listing (toggles : List String) (c : Config) :
      i.command = .features toggles → loadConfig w i = .ok c →
      statuses (i.command.extend c) = .error e → Fails w i e
  | filtering (inputs toggles exclude : List String) (hideKept : Bool) (c : Config) :
      i.command = .filter inputs toggles exclude hideKept → loadConfig w i = .ok c →
      FilterFails w (i.command.extend c) inputs e → Fails w i e
  | refusing : i.command = .init false → w.files.exists? (target i) = true →
      e = .targetExists (target i) → Fails w i e
  | writing (force : Bool) : i.command = .init force →
      w.files.exists? (target i) = false ∨ force = true →
      w.files.write (target i) Config.defaultText = .error e → Fails w i e

theorem features_succeeds_iff {c : Config} {toggles : List String}
    (command : i.command = .features toggles) (loaded : loadConfig w i = .ok c) :
    (∃ o, Succeeds w i o) ↔ ∀ text ∈ c.settings ++ toggles, Registry.builtIn.Takes text := by
  have settings : (i.command.extend c).settings = c.settings ++ toggles := by
    rw [command]
    rfl
  rw [← settings, ← statuses_ok_iff]
  constructor
  · rintro ⟨o, succeeds⟩
    cases succeeds with
    | listed _ c' list _ loaded' found =>
      rw [loaded, Except.ok.injEq] at loaded'
      subst loaded'
      exact ⟨list, found⟩
    | filtered _ _ _ _ _ _ other => cases command.symm.trans other
    | initialized _ _ _ _ other => cases command.symm.trans other
  · rintro ⟨list, found⟩
    exact ⟨_, .listed toggles c list command loaded found⟩

theorem filter_succeeds_iff {c : Config} {inputs toggles exclude : List String} {hideKept : Bool}
    (command : i.command = .filter inputs toggles exclude hideKept)
    (loaded : loadConfig w i = .ok c) :
    (∃ o, Succeeds w i o) ↔ Takes w (i.command.extend c) inputs := by
  constructor
  · rintro ⟨o, succeeds⟩
    cases succeeds with
    | listed _ _ _ other => cases command.symm.trans other
    | filtered inputs' _ _ _ c' a command' loaded' filters =>
      cases command.symm.trans command'
      rw [loaded, Except.ok.injEq] at loaded'
      subst loaded'
      exact takes_of_filters filters
    | initialized _ _ _ _ other => cases command.symm.trans other
  · intro takes
    obtain ⟨a, filters⟩ := filters_of_takes takes
    exact ⟨_, .filtered inputs toggles exclude hideKept c a command loaded filters⟩

theorem perform_init {force : Bool} (command : i.command = .init force) :
    perform w i = initialConfig w.files i.path force := by
  rw [perform, command]

theorem initialConfig_free {force : Bool}
    (free : w.files.exists? (target i) = false ∨ force = true) :
    initialConfig w.files i.path force =
      .ok
        { output := "Wrote " ++ target i ++ "\n"
          written := some (target i, Config.defaultText) } := by
  have allowed : (w.files.exists? (target i) && !force) = false := by
    rcases free with absent | forced
    · rw [absent, Bool.false_and]
    · rw [forced, Bool.not_true, Bool.and_false]
  rw [initialConfig]
  exact if_neg (by rw [← target, allowed]; exact Bool.false_ne_true)

section Run

variable {args : List String} (parsed : read args = .ok i)
include parsed

theorem run_succeeded {o : Outcome} (h : Succeeds w i o) : run w args = o := by
  cases h with
  | listed toggles c list command loaded found =>
    exact run_printed parsed
      ((perform_features_ok_iff command).mpr ⟨c, list, loaded, found, rfl⟩)
  | filtered inputs toggles exclude hideKept c a command loaded filters =>
    exact run_printed parsed
      ((perform_filter_ok_iff command).mpr ⟨c, a, loaded, filters, rfl⟩)
  | initialized force place entries files command free _ written _ =>
    rw [run, parsed]
    simp only [perform_init command, initialConfig_free free, Product.applied, written]

theorem run_fails (h : Fails w i e) : run w args = failed w e := by
  cases h with
  | configuring configured failed =>
    apply run_failed parsed
    cases command : i.command with
    | filter inputs toggles exclude hideKept =>
      exact (perform_filter_error_iff command).mpr (.inl failed)
    | features toggles => exact (perform_features_error_iff command).mpr (.inl failed)
    | init force => exact absurd command (configured force)
  | listing toggles c command loaded failed =>
    exact run_failed parsed ((perform_features_error_iff command).mpr (.inr ⟨c, loaded, failed⟩))
  | filtering inputs toggles exclude hideKept c command loaded failed =>
    exact run_failed parsed ((perform_filter_error_iff command).mpr (.inr ⟨c, loaded, failed⟩))
  | refusing command occupied same =>
    apply run_failed parsed
    rw [perform_init command, initialConfig, ← target, occupied, same]
    rfl
  | writing force command free failed =>
    rw [run, parsed]
    simp only [perform_init command, initialConfig_free free, Product.applied, failed]

theorem init_succeeds {force : Bool} {files : FileTree} (command : i.command = .init force)
    (free : w.files.exists? (target i) = false ∨ force = true)
    (written : w.files.write (target i) Config.defaultText = .ok files) :
    ∃ o, Succeeds w i o := by
  have name : Path.IsName InputSet.configName := by constructor <;> decide
  obtain ⟨reached, followed, gains⟩ := FileTree.gains_of_write written
  obtain ⟨place, entries, folder, rfl⟩ :=
    FileTree.place_of_join (path_ne_empty parsed) name followed
  exact ⟨_, .initialized force place entries files command free folder written gains⟩

theorem succeeds_or_fails : (∃ o, Succeeds w i o) ∨ ∃ e, Fails w i e := by
  cases command : i.command with
  | filter inputs toggles exclude hideKept =>
    cases performed : perform w i with
    | ok p =>
      obtain ⟨c, a, loaded, filters, -⟩ := (perform_filter_ok_iff command).mp performed
      exact .inl ⟨_, .filtered inputs toggles exclude hideKept c a command loaded filters⟩
    | error e =>
      rcases (perform_filter_error_iff command).mp performed with failed | ⟨c, loaded, failed⟩
      · exact .inr ⟨e, .configuring (by simp [command]) failed⟩
      · exact .inr ⟨e, .filtering inputs toggles exclude hideKept c command loaded failed⟩
  | features toggles =>
    cases performed : perform w i with
    | ok p =>
      obtain ⟨c, list, loaded, found, -⟩ := (perform_features_ok_iff command).mp performed
      exact .inl ⟨_, .listed toggles c list command loaded found⟩
    | error e =>
      rcases (perform_features_error_iff command).mp performed with failed | ⟨c, loaded, failed⟩
      · exact .inr ⟨e, .configuring (by simp [command]) failed⟩
      · exact .inr ⟨e, .listing toggles c command loaded failed⟩
  | init force =>
    by_cases free : w.files.exists? (target i) = false ∨ force = true
    · cases written : w.files.write (target i) Config.defaultText with
      | ok files => exact .inl (init_succeeds parsed command free written)
      | error e => exact .inr ⟨e, .writing force command free written⟩
    · rw [not_or, Bool.not_eq_false, Bool.not_eq_true] at free
      rw [free.2] at command
      exact .inr ⟨_, .refusing command free.1 rfl⟩

end Run

theorem fails_told (whole : ¬ BrokenOff w i) (h : Fails w i e) : e.Told := by
  cases h with
  | configuring configured failed => exact loadConfig_told configured whole failed
  | listing toggles c _ _ failed => exact statuses_told failed
  | filtering inputs toggles exclude hideKept c _ _ failed => exact filterFails_told failed
  | refusing _ _ same =>
    rw [same]
    rfl
  | writing force _ _ failed =>
    rw [FileTree.write_error failed]
    rfl

/-- A run leaves either all of its work behind or none. It goes through all its stages, exits with
zero and prints one whole text; only the writing of the default configuration changes a file, the
one of that name in the project folder, and it spares one that is there unless it is told not to. Or
it fails at some stage: then the files are as they were, nothing is printed, and it exits with one
and tells the error. But where a variable of the environment is torn, it is broken off. With a
configuration, a list of the features succeeds just when every setting can be taken, and a filter
when this holds of all that it is given and its workers start. -/
theorem run_all_or_nothing (w : World) {args : List String} {i : Invocation}
    (parsed : read args = .ok i) :
    (∀ o, Succeeds w i o → run w args = o) ∧
    (∀ e, Fails w i e → ¬ BrokenOff w i →
      run w args = { code := 1, complaint := some e, files := w.files }) ∧
    (BrokenOff w i → run w args = { code := 101, files := w.files }) ∧
    ((∃ o, Succeeds w i o) ∨ ∃ e, Fails w i e) ∧
    ∀ c, loadConfig w i = .ok c →
      (∀ toggles, i.command = .features toggles →
        ((∃ o, Succeeds w i o) ↔
          ∀ text ∈ c.settings ++ toggles, Registry.builtIn.Takes text)) ∧
      ∀ inputs toggles exclude hideKept, i.command = .filter inputs toggles exclude hideKept →
        ((∃ o, Succeeds w i o) ↔ Takes w (i.command.extend c) inputs) := by
  refine ⟨?_, ?_, ?_, ?_, ?_⟩
  · intro o succeeds
    exact run_succeeded parsed succeeds
  · intro e fails whole
    rw [run_fails parsed fails, failed, fails_told whole fails]
    rfl
  · intro broken
    rw [run_fails parsed (.configuring broken.configured (loadConfig_torn broken)), failed]
    rfl
  · exact succeeds_or_fails parsed
  · intro c loaded
    constructor
    · intro toggles command
      exact features_succeeds_iff command loaded
    · intro inputs toggles exclude hideKept command
      exact filter_succeeds_iff command loaded

def bare (environment : List (String × String)) : World :=
  { files := ⟨[], []⟩, environment := environment, elapsed := ⟨0⟩ }

theorem init_in_bare_folder :
    ∃ i, read ["init"] = .ok i ∧
      run (bare []) ["init"] =
        { code := 0
          output := "Wrote ./retfilter.toml\n"
          written := some ("./retfilter.toml", Config.defaultText)
          files := ⟨[("retfilter.toml", .file Config.defaultText.toUTF8)], []⟩ } := by
  have parsed : read ["init"] = .ok ⟨".", none, none, false, none, .init false⟩ := by rfl
  have written : (bare []).files.write "./retfilter.toml" Config.defaultText =
      .ok ⟨[("retfilter.toml", .file Config.defaultText.toUTF8)], []⟩ := by rfl
  obtain ⟨place, followed, gains⟩ := FileTree.gains_of_write written
  cases followed
  refine ⟨_, parsed, (run_all_or_nothing (bare []) parsed).1 _ ?_⟩
  exact .initialized false [] [] _ rfl (.inl rfl) rfl written gains

/-- The two bytes of the second character cut it where the bytes that are kept end. -/
theorem torn_toggle_breaks_off :
    ∃ i, read ["features"] = .ok i ∧
      run (bare [("RETFILTER_FEATURES__SETTINGS", "[\"aé\\n\"]")]) ["features"] =
        { code := 101, files := ⟨[], []⟩ } := by
  have parsed : read ["features"] = .ok ⟨".", none, none, false, none, .features []⟩ := by rfl
  have torn : Config.Torn [("RETFILTER_FEATURES__SETTINGS", "[\"aé\\n\"]")] :=
    ⟨_, List.mem_singleton_self _, ["features", "settings"], by decide +kernel, by decide +kernel⟩
  have broken : BrokenOff (bare [("RETFILTER_FEATURES__SETTINGS", "[\"aé\\n\"]")])
      ⟨".", none, none, false, none, .features []⟩ :=
    ⟨by simp, by simp, torn⟩
  refine ⟨_, parsed, ?_⟩
  rw [run_fails parsed (.configuring broken.configured (loadConfig_torn broken))]
  rfl

end MutantSieve.CommandLine.Program
