import MutantSieve.Proofs.Program
import MutantSieve.Proofs.SettingOrder

/-!
# Readers of the settings

The list of the features, the enabled factories, the chain and an analysis each find out from the
settings on their own which features are on. They fail together or agree, because each of them goes
back to one resolution. So do the two commands that read the same configuration and toggles.
-/

set_option autoImplicit false

namespace MutantSieve

def FeatureStatus.active (list : List FeatureStatus) : List Feature :=
  (list.filter FeatureStatus.enabled).map FeatureStatus.feature

namespace Registry

variable {r : Registry} {settings : List Setting}

theorem describe_unknown {s : Setting} (h : r.FirstUnknown settings s) :
    r.describe settings = .error (.unknownFeature s.name) := by
  rw [describe, resolve_unknown h]
  rfl

theorem chain_unknown {s : Setting} (h : r.FirstUnknown settings s) :
    r.chain settings = .error (.unknownFeature s.name) := by
  rw [chain, enabled_unknown h]
  rfl

def statusOf (settings : List Setting) (f : Factory) : FeatureStatus :=
  ⟨f.feature, f.description, f.interceptor.role, isOn settings f⟩

theorem describe_known (known : ∀ s ∈ settings, r.Names s.name) :
    r.describe settings = .ok (r.map (statusOf settings)) := by
  rw [describe, resolve_known known]
  simp only [Except.map, List.map_map]
  rfl

theorem active_status (r : Registry) (settings : List Setting) :
    FeatureStatus.active (r.map (statusOf settings)) =
      (r.filter (isOn settings)).map Factory.feature := by
  rw [FeatureStatus.active, List.filter_map, List.map_map]
  rfl

theorem memberNames_chainOf (factories : List Factory) :
    (chainOf factories).memberNames = factories.map fun f => f.interceptor.name := by
  rw [chainOf, Interceptor.memberNames, List.map_map]
  rfl

end Registry

namespace Analyzer

structure Refuses (a : Analyzer) (e : Error) : Prop where
  described : a.registry.describe a.settings = .error e
  enabled : a.registry.enabled a.settings = .error e
  chained : a.registry.chain a.settings = .error e
  analyzed : ∀ units duration workers, a.analyze units duration workers = .error e

/-- All that reads the settings of an analyzer finds the same features on, in the order of their
registration, and an analysis fails only by its workers or by a verdict on a unit. -/
structure Agrees (a : Analyzer) (list : List FeatureStatus) (factories : List Factory)
    (chain : Interceptor) : Prop where
  described : a.registry.describe a.settings = .ok list
  enabled : a.registry.enabled a.settings = .ok factories
  chained : a.registry.chain a.settings = .ok chain
  registered : list.map FeatureStatus.feature = a.registry.map Factory.feature
  in_order : factories.Sublist a.registry
  active : FeatureStatus.active list = factories.map Factory.feature
  members : chain.memberNames = factories.map fun f => f.interceptor.name
  summed_up : ∀ units duration workers r, a.analyze units duration workers = .ok r →
    r.summary.features = (FeatureStatus.active list).map Feature.name
  failed : ∀ units duration workers e, a.analyze units duration workers = .error e →
    workers.hire a.jobs = .error e ∨
      ∃ u ∈ units, FirstFailure (chain.verdictOn u.class) u.mutations e

variable {a : Analyzer}

theorem refuses_of_unknown {s : Setting} (h : a.registry.FirstUnknown a.settings s) :
    a.Refuses (.unknownFeature s.name) where
  described := Registry.describe_unknown h
  enabled := Registry.enabled_unknown h
  chained := Registry.chain_unknown h
  analyzed := fun _ _ _ => analyze_unknown h

theorem agrees_of_known (known : ∀ s ∈ a.settings, a.registry.Names s.name) :
    a.Agrees (a.registry.map (Registry.statusOf a.settings))
      (a.registry.filter (Registry.isOn a.settings))
      (Registry.chainOf (a.registry.filter (Registry.isOn a.settings))) where
  described := Registry.describe_known known
  enabled := Registry.enabled_known known
  chained := Registry.chain_ok (Registry.enabled_known known)
  registered := by
    rw [List.map_map]
    rfl
  in_order := List.filter_sublist
  active := Registry.active_status a.registry a.settings
  members := Registry.memberNames_chainOf _
  summed_up := by
    intro units duration workers r analyzed
    obtain ⟨g, -, analyzed⟩ := analyze_ok_iff.mp analyzed
    have reported := analyzeBy_reports _ units duration (Registry.enabled_known known) analyzed
    rw [reported.2.2.1, Registry.active_status, List.map_map]
    rfl
  failed := by
    intro units duration workers e failed
    rcases of_analyze_error known failed with unhired | ⟨g, failed⟩
    · exact .inl unhired
    · exact .inr (failure_of_analyzeBy _ units duration (Registry.enabled_known known) failed)

end Analyzer

namespace CommandLine

structure Invocation.SameToggles (i j : Invocation)
    (toggles inputs exclude : List String) (hideKept : Bool) : Prop where
  lists : i.command = .features toggles
  filters : j.command = .filter inputs toggles exclude hideKept
  path : i.path = j.path
  config : i.config = j.config

namespace Program

variable {w : World} {args args' : List String} {i j : Invocation} {c c' : Config}
  {toggles inputs exclude : List String} {hideKept : Bool}

/-- Two invocations for one project and file load the same configuration, but for the number of
workers that they ask for. -/
theorem loadConfig_alike (path : i.path = j.path) (config : i.config = j.config) :
    (∀ e, loadConfig w i = .error e → loadConfig w j = .error e) ∧
      ∀ c, loadConfig w i = .ok c → ∃ jobs, loadConfig w j = .ok { c with jobs := jobs } := by
  have same : baseConfig w i = baseConfig w j := by rw [baseConfig, baseConfig, path, config]
  rw [loadConfig_eq, loadConfig_eq, same]
  cases baseConfig w j with
  | error e => exact ⟨fun _ failed => failed, fun _ loaded => nomatch loaded⟩
  | ok base =>
    constructor
    · intro e failed
      cases failed
    · intro c loaded
      cases loaded
      exact ⟨_, rfl⟩

theorem run_features (parsed : read args = .ok i) (command : i.command = .features toggles)
    (loaded : loadConfig w i = .ok c) :
    (∀ e, statuses (i.command.extend c) = .error e → run w args = failed w e) ∧
      ∀ list, statuses (i.command.extend c) = .ok list →
        run w args =
          { code := 0
            output := Report.features list (i.format.getD c.format)
            files := w.files } := by
  constructor
  · intro e refused
    apply run_failed parsed
    exact (perform_features_error_iff command).mpr (.inr ⟨c, loaded, refused⟩)
  · intro list accepted
    apply run_printed parsed
    exact (perform_features_ok_iff command).mpr ⟨c, list, loaded, accepted, rfl⟩

theorem run_filter_refused (parsed : read args = .ok j)
    (command : j.command = .filter inputs toggles exclude hideKept)
    (loaded : loadConfig w j = .ok c) {units : List ClassUnit}
    (inputsLoad : Loads w (j.command.extend c) inputs units) {e : Error}
    (refused : statuses (j.command.extend c) = .error e) : run w args = failed w e := by
  apply run_failed parsed
  refine (perform_filter_error_iff command).mpr (.inr ⟨c, loaded, ?_⟩)
  rcases bind_eq_error_iff.mp refused with unreadable | ⟨settings, readable, unknown⟩
  · exact .reading units inputsLoad unreadable
  · apply FilterFails.analyzing units settings inputsLoad readable
    rcases Registry.known_or_firstUnknown Registry.builtIn settings with known | ⟨s, first⟩
    · rw [Registry.describe_known known] at unknown
      cases unknown
    · rw [Registry.describe_unknown first] at unknown
      cases unknown
      exact Analyzer.analyze_unknown first

theorem features_of_filters {a : Analysis} (filters : Filters w c inputs a) :
    ∃ list, statuses c = .ok list ∧
      a.summary.features = (FeatureStatus.active list).map Feature.name := by
  obtain ⟨units, settings, -, parsed, analyzed⟩ := filters
  obtain ⟨g, -, started⟩ := Analyzer.analyze_ok_iff.mp analyzed
  have known := Analyzer.known_of_success started
  have agreed := Analyzer.agrees_of_known (a := Analyzer.builtIn settings c.jobs c.showKept) known
  exact ⟨_, bind_eq_ok_iff.mpr ⟨settings, parsed, agreed.described⟩,
    agreed.summed_up _ _ _ _ analyzed⟩

theorem filters_of_run (parsed : read args = .ok j)
    (command : j.command = .filter inputs toggles exclude hideKept)
    (succeeded : (run w args).code = 0) :
    ∃ c a, loadConfig w j = .ok c ∧ Filters w (j.command.extend c) inputs a ∧
      run w args =
        { code := 0, output := a.report (j.format.getD c.format), files := w.files } := by
  cases performed : perform w j with
  | error e =>
    rw [run_failed parsed performed] at succeeded
    exact absurd succeeded (failed_code w e)
  | ok p =>
    obtain ⟨c, a, loaded, filters, rfl⟩ := (perform_filter_ok_iff command).mp performed
    exact ⟨c, a, loaded, filters, run_printed parsed performed⟩

end Program

structure Program.CommandsAgree (w : World) (args args' : List String) (i j : Invocation)
    (inputs : List String) : Prop where
  unconfigured : ∀ e, loadConfig w i = .error e → run w args = failed w e ∧ run w args' = failed w e
  refused : ∀ c c' e, loadConfig w i = .ok c → loadConfig w j = .ok c' →
    statuses (i.command.extend c) = .error e →
      run w args = failed w e ∧
        ∀ units, Loads w (j.command.extend c') inputs units → run w args' = failed w e
  accepted : ∀ c list, loadConfig w i = .ok c → statuses (i.command.extend c) = .ok list →
    run w args =
      { code := 0, output := Report.features list (i.format.getD c.format), files := w.files }
  succeeded : (run w args').code = 0 → ∃ c c' list a,
    loadConfig w i = .ok c ∧ loadConfig w j = .ok c' ∧
    run w args =
      { code := 0, output := Report.features list (i.format.getD c.format), files := w.files } ∧
    Filters w (j.command.extend c') inputs a ∧
    run w args' =
      { code := 0, output := a.report (j.format.getD c'.format), files := w.files } ∧
    a.summary.features = (FeatureStatus.active list).map Feature.name

namespace Program

variable {w : World} {args args' : List String} {i j : Invocation}
  {toggles inputs exclude : List String} {hideKept : Bool}

theorem statuses_extend (same : i.SameToggles j toggles inputs exclude hideKept) (c : Config)
    (jobs : Nat) :
    statuses (j.command.extend { c with jobs := jobs }) = statuses (i.command.extend c) := by
  rw [same.lists, same.filters]
  rfl

theorem commands_agree (parsed : read args = .ok i) (parsed' : read args' = .ok j)
    (same : i.SameToggles j toggles inputs exclude hideKept) :
    CommandsAgree w args args' i j inputs where
  unconfigured := by
    intro e failed
    have failed' := (loadConfig_alike same.path same.config).1 e failed
    exact ⟨run_failed parsed ((perform_features_error_iff same.lists).mpr (.inl failed)),
      run_failed parsed' ((perform_filter_error_iff same.filters).mpr (.inl failed'))⟩
  refused := by
    intro c c' e loaded loaded' refused
    obtain ⟨jobs, alike⟩ := (loadConfig_alike same.path same.config).2 c loaded
    rw [loaded', Except.ok.injEq] at alike
    subst alike
    constructor
    · exact (run_features parsed same.lists loaded).1 e refused
    · intro units inputsLoad
      apply run_filter_refused parsed' same.filters loaded' inputsLoad
      rw [statuses_extend same, refused]
  accepted := by
    intro c list loaded accepted
    exact (run_features parsed same.lists loaded).2 list accepted
  succeeded := by
    intro succeeded
    obtain ⟨c', a, loaded', filters, ran⟩ := filters_of_run parsed' same.filters succeeded
    obtain ⟨list, found, summed⟩ := features_of_filters filters
    cases loaded : loadConfig w i with
    | error e =>
      rw [(loadConfig_alike same.path same.config).1 e loaded] at loaded'
      cases loaded'
    | ok c =>
      obtain ⟨jobs, alike⟩ := (loadConfig_alike same.path same.config).2 c loaded
      rw [loaded', Except.ok.injEq] at alike
      subst alike
      rw [statuses_extend same] at found
      exact ⟨c, _, list, a, rfl, loaded', (run_features parsed same.lists loaded).2 list found,
        filters, ran, summed⟩

end Program

/-- All readers of the settings agree, whatever the registry: either the first setting that names no
feature makes each of them fail, or they find the same features on. Therefore the two commands agree
as well: with the same project, configuration file and toggles they fail for the same reason, and a
filter that succeeds sums up the features that the list shows as enabled. -/
theorem toggles_agree :
    (∀ a : Analyzer,
      (∃ s, a.registry.FirstUnknown a.settings s ∧ a.Refuses (.unknownFeature s.name)) ∨
        (∀ s ∈ a.settings, a.registry.Names s.name) ∧
          ∃ list factories chain, a.Agrees list factories chain) ∧
    ∀ (w : World) (args args' : List String) (i j : Invocation)
      (toggles inputs exclude : List String) (hideKept : Bool),
      read args = .ok i → read args' = .ok j → i.SameToggles j toggles inputs exclude hideKept →
        Program.CommandsAgree w args args' i j inputs := by
  constructor
  · intro a
    rcases Registry.known_or_firstUnknown a.registry a.settings with known | ⟨s, first⟩
    · exact .inr ⟨known, _, _, _, Analyzer.agrees_of_known known⟩
    · exact .inl ⟨s, first, Analyzer.refuses_of_unknown first⟩
  · intro w args args' i j toggles inputs exclude hideKept parsed parsed' same
    exact Program.commands_agree parsed parsed' same

/-- The last of two settings for one feature decides, here for the feature to be off. -/
example : (Program.statuses { settings := [" + fretequiv", "-FRETEQUIV"] }).map
    FeatureStatus.active = .ok [] := by rfl

end CommandLine

end MutantSieve
