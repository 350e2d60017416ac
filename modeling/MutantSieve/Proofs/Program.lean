import MutantSieve.CommandLine.Program
import MutantSieve.Proofs.Analysis

/-!
# The stages of a run

A run goes through its stages one after another, and the first one that fails decides how it ends.
What the stages of a command come to is described once, for their success and for each way in which
they fail; a run is then the outcome of that.
-/

set_option autoImplicit false

namespace MutantSieve

section Except

variable {ε α β : Type} {x : Except ε α}

theorem toOption_eq_some_iff {a : α} : x.toOption = some a ↔ x = .ok a := by
  cases x <;> simp [Except.toOption]

theorem bind_eq_ok_iff {f : α → Except ε β} {b : β} :
    x >>= f = .ok b ↔ ∃ a, x = .ok a ∧ f a = .ok b := by
  cases x <;> simp [bind, Except.bind]

theorem bind_eq_error_iff {f : α → Except ε β} {e : ε} :
    x >>= f = .error e ↔ x = .error e ∨ ∃ a, x = .ok a ∧ f a = .error e := by
  cases x <;> simp [bind, Except.bind]

theorem map_eq_ok_iff {f : α → β} {b : β} : x.map f = .ok b ↔ ∃ a, x = .ok a ∧ f a = b := by
  cases x <;> simp [Except.map]

theorem map_eq_error_iff {f : α → β} {e : ε} : x.map f = .error e ↔ x = .error e := by
  cases x <;> simp [Except.map]

theorem exists_map_ok_iff {f : α → β} : (∃ b, x.map f = .ok b) ↔ ∃ a, x = .ok a := by
  cases x <;> simp [Except.map]

end Except

namespace CommandLine

def Command.extend (c : Config) : Command → Config
  | .filter _ settings exclude hideKept =>
    { c with
      settings := c.settings ++ settings
      exclude := c.exclude ++ exclude
      showKept := c.showKept && !hideKept }
  | .features settings => { c with settings := c.settings ++ settings }
  | .init _ => c

namespace Program

def baseConfig (w : World) (i : Invocation) : Except Error Config :=
  match i.config with
  | some path => Config.fromFile w.files w.environment path
  | none => Config.ofProject w.files w.environment i.path

theorem loadConfig_eq (w : World) (i : Invocation) :
    loadConfig w i = (baseConfig w i).map fun c => { c with jobs := i.jobs.getD c.jobs } := rfl

def statuses (c : Config) : Except Error (List FeatureStatus) :=
  c.parsedSettings >>= Registry.builtIn.describe

def Loads (w : World) (c : Config) (inputs : List String) (units : List ClassUnit) : Prop :=
  ∃ set, InputSet.ofPaths w.files w.environment inputs c.exclude = .ok set ∧
    ClassUnit.loadAll w.files set = .ok units

def Filters (w : World) (c : Config) (inputs : List String) (a : Analysis) : Prop :=
  ∃ units settings, Loads w c inputs units ∧ c.parsedSettings = .ok settings ∧
    (Analyzer.builtIn settings c.jobs c.showKept).analyze units w.elapsed w.workers = .ok a

inductive FilterFails (w : World) (c : Config) (inputs : List String) (e : Error) : Prop where
  | collecting : InputSet.ofPaths w.files w.environment inputs c.exclude = .error e →
      FilterFails w c inputs e
  | loading (set : InputSet) :
      InputSet.ofPaths w.files w.environment inputs c.exclude = .ok set →
      ClassUnit.loadAll w.files set = .error e → FilterFails w c inputs e
  | reading (units : List ClassUnit) : Loads w c inputs units → c.parsedSettings = .error e →
      FilterFails w c inputs e
  | analyzing (units : List ClassUnit) (settings : List Setting) : Loads w c inputs units →
      c.parsedSettings = .ok settings →
      (Analyzer.builtIn settings c.jobs c.showKept).analyze units w.elapsed w.workers = .error e →
      FilterFails w c inputs e

section Stages

variable {w : World} {c : Config} {i : Invocation} {format : ReportFormat}
  {inputs toggles exclude : List String} {hideKept : Bool}

theorem filter_ok_iff {text : String} :
    filter w c format inputs = .ok text ↔
      ∃ a, Filters w c inputs a ∧ text = a.report format := by
  simp only [filter, analyzerOf, bind_eq_ok_iff, map_eq_ok_iff, pure, Except.pure, Except.ok.injEq]
  constructor
  · rintro ⟨set, found, units, read, analyzer, ⟨settings, parsed, rfl⟩, a, analyzed, rfl⟩
    exact ⟨a, ⟨units, settings, ⟨set, found, read⟩, parsed, analyzed⟩, rfl⟩
  · rintro ⟨a, ⟨units, settings, ⟨set, found, read⟩, parsed, analyzed⟩, rfl⟩
    exact ⟨set, found, units, read, _, ⟨settings, parsed, rfl⟩, a, analyzed, rfl⟩

theorem filter_error_iff {e : Error} :
    filter w c format inputs = .error e ↔ FilterFails w c inputs e := by
  simp only [filter, analyzerOf, bind_eq_error_iff, map_eq_error_iff, map_eq_ok_iff, pure,
    Except.pure, reduceCtorEq, and_false, exists_false, or_false]
  constructor
  · rintro (failed | ⟨set, found, failed |
      ⟨units, read, failed | ⟨_, ⟨settings, parsed, rfl⟩, failed⟩⟩⟩)
    · exact .collecting failed
    · exact .loading set found failed
    · exact .reading units ⟨set, found, read⟩ failed
    · exact .analyzing units settings ⟨set, found, read⟩ parsed failed
  · rintro (failed | ⟨set, found, failed⟩ | ⟨units, ⟨set, found, read⟩, failed⟩ |
      ⟨units, settings, ⟨set, found, read⟩, parsed, failed⟩)
    · exact .inl failed
    · exact .inr ⟨set, found, .inl failed⟩
    · exact .inr ⟨set, found, .inr ⟨units, read, .inl failed⟩⟩
    · exact .inr ⟨set, found, .inr ⟨units, read, .inr ⟨_, ⟨settings, parsed, rfl⟩, failed⟩⟩⟩

theorem listFeatures_eq (c : Config) (format : ReportFormat) :
    listFeatures c format = (statuses c).map fun list => Report.features list format := by
  rw [listFeatures, statuses]
  cases c.parsedSettings with
  | error e => rfl
  | ok settings =>
    show (Registry.builtIn.describe settings >>= _) = (Registry.builtIn.describe settings).map _
    cases Registry.builtIn.describe settings <;> rfl

theorem perform_features (command : i.command = .features toggles) :
    perform w i = do
      let c ← loadConfig w i
      let text ← listFeatures (i.command.extend c) (i.format.getD c.format)
      return { output := text } := by
  simp only [perform, command, Command.extend]

theorem perform_filter (command : i.command = .filter inputs toggles exclude hideKept) :
    perform w i = do
      let c ← loadConfig w i
      let text ← filter w (i.command.extend c) (i.format.getD c.format) inputs
      return { output := text } := by
  simp only [perform, command, Command.extend]

theorem perform_features_ok_iff (command : i.command = .features toggles) {p : Product} :
    perform w i = .ok p ↔
      ∃ c list, loadConfig w i = .ok c ∧ statuses (i.command.extend c) = .ok list ∧
        p = { output := Report.features list (i.format.getD c.format) } := by
  simp only [perform_features command, bind_eq_ok_iff, listFeatures_eq, map_eq_ok_iff, pure,
    Except.pure, Except.ok.injEq]
  constructor
  · rintro ⟨c, loaded, text, ⟨list, found, rfl⟩, rfl⟩
    exact ⟨c, list, loaded, found, rfl⟩
  · rintro ⟨c, list, loaded, found, rfl⟩
    exact ⟨c, loaded, _, ⟨list, found, rfl⟩, rfl⟩

theorem perform_features_error_iff (command : i.command = .features toggles) {e : Error} :
    perform w i = .error e ↔ loadConfig w i = .error e ∨
      ∃ c, loadConfig w i = .ok c ∧ statuses (i.command.extend c) = .error e := by
  simp only [perform_features command, bind_eq_error_iff, listFeatures_eq, map_eq_error_iff, pure,
    Except.pure, reduceCtorEq, and_false, exists_false, or_false]

theorem perform_filter_ok_iff (command : i.command = .filter inputs toggles exclude hideKept)
    {p : Product} :
    perform w i = .ok p ↔
      ∃ c a, loadConfig w i = .ok c ∧ Filters w (i.command.extend c) inputs a ∧
        p = { output := a.report (i.format.getD c.format) } := by
  simp only [perform_filter command, bind_eq_ok_iff, filter_ok_iff, pure, Except.pure,
    Except.ok.injEq]
  constructor
  · rintro ⟨c, loaded, text, ⟨a, filters, rfl⟩, rfl⟩
    exact ⟨c, a, loaded, filters, rfl⟩
  · rintro ⟨c, a, loaded, filters, rfl⟩
    exact ⟨c, loaded, _, ⟨a, filters, rfl⟩, rfl⟩

theorem perform_filter_error_iff (command : i.command = .filter inputs toggles exclude hideKept)
    {e : Error} :
    perform w i = .error e ↔ loadConfig w i = .error e ∨
      ∃ c, loadConfig w i = .ok c ∧ FilterFails w (i.command.extend c) inputs e := by
  simp only [perform_filter command, bind_eq_error_iff, filter_error_iff, pure, Except.pure,
    reduceCtorEq, and_false, exists_false, or_false]

end Stages

section Run

variable {w : World} {args : List String} {i : Invocation}

theorem run_failed (parsed : read args = .ok i) {e : Error} (h : perform w i = .error e) :
    run w args = failed w e := by
  rw [run, parsed]
  simp only [h]

theorem run_printed (parsed : read args = .ok i) {text : String}
    (h : perform w i = .ok { output := text }) :
    run w args = { code := 0, output := text, files := w.files } := by
  rw [run, parsed]
  simp only [h, Product.applied]

theorem failed_code (w : World) (e : Error) : (failed w e).code ≠ 0 := by
  by_cases fatal : e.isFatal = true <;> simp [failed, fatal]

end Run

end Program

end CommandLine

end MutantSieve
