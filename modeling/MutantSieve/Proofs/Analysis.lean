import Mathlib.Data.List.Forall2
import MutantSieve.Analysis
import MutantSieve.Proofs.Feature
import MutantSieve.Proofs.Summary
import MutantSieve.Proofs.Verdict

/-!
# Whole analyses

The units are divided independently of each other, so an analysis fails as one of its units does,
and its results stand for the units one by one. How many workers there are and whether the mutations
that stay are listed changes nothing else.
-/

set_option autoImplicit false

namespace MutantSieve

section Gathering

variable {α β : Type}

theorem all_ok_or_error (results : List (Except Error α)) :
    (∃ items : List α, results = items.map .ok) ∨ ∃ e, .error e ∈ results := by
  induction results with
  | nil => exact Or.inl ⟨[], rfl⟩
  | cons result rest ih =>
    cases result with
    | error e => exact Or.inr ⟨e, List.mem_cons_self⟩
    | ok a =>
      rcases ih with ⟨items, rfl⟩ | ⟨e, there⟩
      · exact Or.inl ⟨a :: items, rfl⟩
      · exact Or.inr ⟨e, List.mem_cons_of_mem _ there⟩

theorem map_eq_map_ok_iff (f : α → Except Error β) (xs : List α) (ys : List β) :
    xs.map f = ys.map .ok ↔ List.Forall₂ (fun x y => f x = .ok y) xs ys := by
  induction xs generalizing ys with
  | nil => cases ys <;> simp
  | cons x xs ih => cases ys <;> simp [ih]

namespace Gathering

variable (g : Gathering α)

theorem gather_cases (results : List (Except Error α)) :
    (∃ items, results = items.map .ok ∧ g.gather results = .ok items) ∨
      ∃ e, .error e ∈ results ∧ g.gather results = .error e := by
  rcases all_ok_or_error results with ⟨items, rfl⟩ | failed
  · exact Or.inl ⟨items, rfl, g.gather_ok items⟩
  · exact Or.inr (g.gather_error results failed)

theorem gather_ok_iff (results : List (Except Error α)) (items : List α) :
    g.gather results = .ok items ↔ results = items.map .ok := by
  constructor
  · intro gathered
    rcases g.gather_cases results with ⟨items', all, gathered'⟩ | ⟨e, -, stopped⟩
    · rw [gathered] at gathered'
      cases gathered'
      exact all
    · rw [gathered] at stopped
      cases stopped
  · rintro rfl
    exact g.gather_ok items

theorem map_gather_ok_iff (f : List α → β) (results : List (Except Error α)) (b : β) :
    (g.gather results).map f = .ok b ↔ ∃ items : List α, results = items.map .ok ∧ f items = b := by
  rcases g.gather_cases results with ⟨items, all, gathered⟩ | ⟨e, there, stopped⟩
  · rw [gathered]
    constructor
    · intro made
      exact ⟨items, all, Except.ok.inj made⟩
    · rintro ⟨items', all', rfl⟩
      have same := (g.gather_ok_iff results items').mpr all'
      rw [gathered] at same
      rw [same]
      rfl
  · rw [stopped]
    constructor
    · intro made
      cases made
    · rintro ⟨items, rfl, -⟩
      simp at there

theorem mem_of_gather_error {results : List (Except Error α)} {e : Error}
    (h : g.gather results = .error e) : .error e ∈ results := by
  rcases g.gather_cases results with ⟨items, -, gathered⟩ | ⟨e', there, stopped⟩
  · rw [h] at gathered
    cases gathered
  · rw [h] at stopped
    cases stopped
    exact there

end Gathering

namespace Workers

variable {w : Workers α} {jobs : Nat}

/-- Where none are asked for, none have to be started. -/
def Starts (w : Workers α) (jobs : Nat) : Prop := jobs = 0 ∨ ∃ g, w.start jobs = .ok g

theorem hire_ready (gathering : Nat → Gathering α) (jobs : Nat) :
    (ready gathering).hire jobs = .ok (gathering jobs) := by
  rw [hire]
  split
  · next nobody =>
    rw [nobody]
    rfl
  · rfl

theorem starts_iff : w.Starts jobs ↔ ∃ g, w.hire jobs = .ok g := by
  rw [Starts, hire]
  by_cases nobody : jobs = 0
  · simp [nobody]
  · rw [if_neg nobody, or_iff_right nobody]
    cases w.start jobs <;> simp [Except.mapError]

theorem of_hire_error {e : Error} (h : w.hire jobs = .error e) :
    jobs ≠ 0 ∧ ∃ reason, w.start jobs = .error reason ∧
      e = .refused ("cannot start workers: " ++ reason) := by
  rw [hire] at h
  split at h
  · cases h
  · next asked =>
    cases started : w.start jobs with
    | error reason =>
      rw [started] at h
      cases h
      exact ⟨asked, reason, rfl, rfl⟩
    | ok g =>
      rw [started] at h
      cases h

end Workers

end Gathering

namespace Interceptor

variable (name : String) (i : Interceptor) (c : ClassTree) (m : Mutation)

theorem verdictOn_empty_group : (group name []).verdictOn c m = .ok none := rfl

theorem verdictOn_single_group : (group name [i]).verdictOn c m = i.verdictOn c m := by
  show (firstFilter c m [i]).result = i.verdictOn c m
  rw [firstFilter]
  cases verdict : i.verdictOn c m with
  | error e => exact Traced.andThen_error _ verdict
  | ok found =>
    rw [Traced.andThen_ok _ verdict]
    cases found <;> rfl

def Divided (u : ClassUnit) (result : String × Partition) : Prop :=
  result.1 = u.class.name ∧ Partition.Divides (i.verdictOn u.class) u.mutations result.2

end Interceptor

/-- Every mutation of a unit that replaces a returned value is in a method of the class. -/
def ClassUnit.Placed (u : ClassUnit) : Prop :=
  ∀ m ∈ u.mutations, m.id.mutator ∈ Mutator.ofReturns →
    ∃ f ∈ u.class.methods, f.location = m.id.location

/-- What the result of a class says of its unit, of whose mutations `kept` are those that stay. -/
structure ClassResult.Reports (showKept : Bool)
    (verdict : ClassTree → Mutation → Except Error (Option String)) (u : ClassUnit)
    (kept : List Mutation) (r : ClassResult) : Prop where
  name : r.class = u.class.name
  kept_in_order : kept.Sublist u.mutations
  filtered_in_order : (r.filtered.map FilteredMutation.mutation).Sublist u.mutations
  once : (kept ++ r.filtered.map FilteredMutation.mutation).Perm u.mutations
  stays : ∀ m ∈ kept, verdict u.class m = .ok none
  goes : ∀ f ∈ r.filtered, verdict u.class f.mutation = .ok (some f.filter)
  keptCount : r.keptCount = kept.length
  filteredCount : r.filteredCount = r.filtered.length
  counts : r.keptCount + r.filteredCount = u.mutations.length
  rate : r.rate = share r.filteredCount u.mutations.length
  listed : r.kept = if showKept then kept else []

structure Summary.Adds (s : Summary) (units : List ClassUnit) (classes : List ClassResult) :
    Prop where
  totalClasses : s.totalClasses = units.length
  totalMutations : s.totalMutations = total (units.map fun u => u.mutations.length)
  kept : s.kept = total (classes.map ClassResult.keptCount)
  filtered : s.filtered = total (classes.map ClassResult.filteredCount)
  conserved : s.kept + s.filtered = s.totalMutations
  rate : s.rate = share s.filtered s.totalMutations
  byFilter : Tally.sum id s.byFilter = s.filtered
  byMutator : Tally.sum MutatorCount.total s.byMutator = s.totalMutations
  filteredByMutator : Tally.sum MutatorCount.filtered s.byMutator = s.filtered

def Analysis.unlisted (r : Analysis) : Analysis :=
  { r with classes := r.classes.map fun c => { c with kept := [] } }

namespace Analyzer

variable {a : Analyzer} {i : Interceptor}

theorem divide_ok_iff (h : a.registry.chain a.settings = .ok i) (u : ClassUnit)
    (result : String × Partition) : a.divide u = .ok result ↔ i.Divided u result := by
  obtain ⟨name, p⟩ := result
  simp only [divide, h, Interceptor.Divided]
  constructor
  · intro divided
    cases parted : (i.partition u.class u.mutations).result with
    | error e =>
      rw [parted] at divided
      cases divided
    | ok p' =>
      rw [parted] at divided
      cases divided
      exact ⟨rfl, Interceptor.divides_of_partition parted⟩
  · rintro ⟨rfl, divides⟩
    rw [Interceptor.partition_of_divides divides]
    rfl

theorem failure_of_divide (h : a.registry.chain a.settings = .ok i) {u : ClassUnit} {e : Error}
    (failed : a.divide u = .error e) : FirstFailure (i.verdictOn u.class) u.mutations e := by
  simp only [divide, h] at failed
  cases parted : (i.partition u.class u.mutations).result with
  | error e' =>
    rw [parted] at failed
    cases failed
    exact Interceptor.failure_of_partition parted
  | ok p =>
    rw [parted] at failed
    cases failed

section Hired

variable {team : Workers (String × Partition)} {units : List ClassUnit} {duration : Elapsed}

theorem analyze_unknown {s : Setting} (h : a.registry.FirstUnknown a.settings s) :
    a.analyze units duration team = .error (.unknownFeature s.name) := by
  rw [analyze, Registry.enabled_unknown h]

theorem analyze_hired {g : Gathering (String × Partition)} (hired : team.hire a.jobs = .ok g) :
    a.analyze units duration team = a.analyzeBy (fun _ => g) units duration := by
  rw [analyzeBy, analyze, analyze, hired, Workers.hire_ready]

theorem analyze_ok_iff {r : Analysis} :
    a.analyze units duration team = .ok r ↔
      ∃ g, team.hire a.jobs = .ok g ∧ a.analyzeBy (fun _ => g) units duration = .ok r := by
  constructor
  · intro analyzed
    cases hired : team.hire a.jobs with
    | ok g => exact ⟨g, rfl, by rw [← analyze_hired hired, analyzed]⟩
    | error e =>
      rw [analyze, hired] at analyzed
      split at analyzed <;> cases analyzed
  · rintro ⟨g, hired, analyzed⟩
    rw [analyze_hired hired, analyzed]

theorem of_analyze_error (known : ∀ s ∈ a.settings, a.registry.Names s.name) {e : Error}
    (failed : a.analyze units duration team = .error e) :
    team.hire a.jobs = .error e ∨ ∃ g, a.analyzeBy (fun _ => g) units duration = .error e := by
  cases hired : team.hire a.jobs with
  | ok g => exact .inr ⟨g, by rw [← analyze_hired hired, failed]⟩
  | error e' =>
    rw [analyze, Registry.enabled_known known, hired] at failed
    cases failed
    exact .inl rfl

end Hired

variable (workers : Nat → Gathering (String × Partition)) (units : List ClassUnit)
  (duration : Elapsed)

theorem analyzeBy_unknown {s : Setting} (h : a.registry.FirstUnknown a.settings s) :
    a.analyzeBy workers units duration = .error (.unknownFeature s.name) :=
  analyze_unknown h

theorem analyzeBy_enabled {factories : List Factory}
    (enabled : a.registry.enabled a.settings = .ok factories) :
    a.analyzeBy workers units duration =
      ((workers a.jobs).gather (units.map a.divide)).map
        (a.report (factories.map fun f => f.feature.name) duration) := by
  rw [analyzeBy, analyze, enabled, Workers.hire_ready]

theorem analyzeBy_refused {e : Error} (refused : a.registry.enabled a.settings = .error e) :
    a.analyzeBy workers units duration = .error e := by
  rw [analyzeBy, analyze, refused]

theorem exists_enabled {r : Analysis} (analyzed : a.analyzeBy workers units duration = .ok r) :
    ∃ factories, a.registry.enabled a.settings = .ok factories := by
  cases enabled : a.registry.enabled a.settings with
  | ok factories => exact ⟨factories, rfl⟩
  | error e =>
    rw [analyzeBy_refused _ _ _ enabled] at analyzed
    cases analyzed

section Enabled

variable {factories : List Factory} (enabled : a.registry.enabled a.settings = .ok factories)
include enabled

theorem analyzeBy_ok_iff (r : Analysis) :
    a.analyzeBy workers units duration = .ok r ↔
      ∃ results, List.Forall₂ (Registry.chainOf factories).Divided units results ∧
        a.report (factories.map fun f => f.feature.name) duration results = r := by
  rw [analyzeBy_enabled _ _ _ enabled]
  simp only [Gathering.map_gather_ok_iff, map_eq_map_ok_iff,
    divide_ok_iff (Registry.chain_ok enabled)]

theorem failure_of_analyzeBy {e : Error}
    (failed : a.analyzeBy workers units duration = .error e) :
    ∃ u ∈ units,
      FirstFailure ((Registry.chainOf factories).verdictOn u.class) u.mutations e := by
  rw [analyzeBy_enabled _ _ _ enabled] at failed
  cases gathered : (workers a.jobs).gather (units.map a.divide) with
  | ok results =>
    rw [gathered] at failed
    cases failed
  | error e' =>
    rw [gathered] at failed
    cases failed
    obtain ⟨u, hu, divided⟩ := List.mem_map.mp (Gathering.mem_of_gather_error _ gathered)
    exact ⟨u, hu, failure_of_divide (Registry.chain_ok enabled) divided⟩

theorem analyzeBy_succeeds_iff :
    (∃ r, a.analyzeBy workers units duration = .ok r) ↔
      ∀ u ∈ units, ∀ m ∈ u.mutations,
        ∃ v, (Registry.chainOf factories).verdictOn u.class m = .ok v := by
  have chain := Registry.chain_ok enabled
  constructor
  · rintro ⟨r, analyzed⟩ u hu
    obtain ⟨results, divided, -⟩ :=
      (analyzeBy_ok_iff workers units duration enabled r).mp analyzed
    have all := (map_eq_map_ok_iff a.divide units results).mpr
      (divided.imp fun u result => (divide_ok_iff chain u result).mpr)
    have there := List.mem_map_of_mem (f := a.divide) hu
    rw [all] at there
    obtain ⟨result, -, same⟩ := List.mem_map.mp there
    exact ((divide_ok_iff chain u result).mp same.symm).2.verdict_ok
  · intro fine
    cases analyzed : a.analyzeBy workers units duration with
    | ok r => exact ⟨r, rfl⟩
    | error e =>
      obtain ⟨u, hu, failure⟩ := failure_of_analyzeBy workers units duration enabled analyzed
      obtain ⟨m, hm, fails⟩ := firstFailure_mem failure
      obtain ⟨v, ok⟩ := fine u hu m hm
      rw [fails] at ok
      cases ok

end Enabled

variable (a)

theorem analyzeBy_workers (workers' : Nat → Gathering (String × Partition)) (jobs' : Nat)
    (r : Analysis) :
    a.analyzeBy workers units duration = .ok r ↔
      { a with jobs := jobs' }.analyzeBy workers' units duration = .ok r := by
  cases enabled : a.registry.enabled a.settings with
  | error e =>
    rw [analyzeBy_refused _ _ _ enabled, analyzeBy_refused workers' _ _ (by exact enabled)]
  | ok factories =>
    rw [analyzeBy_enabled _ _ _ enabled, analyzeBy_enabled workers' _ _ (by exact enabled)]
    simp only [Gathering.map_gather_ok_iff]
    exact Iff.rfl

theorem analyzeBy_unlisted :
    { a with showKept := false }.analyzeBy workers units duration =
      ({ a with showKept := true }.analyzeBy workers units duration).map Analysis.unlisted := by
  have same : ∀ s, { a with showKept := s }.divide = a.divide := fun _ => rfl
  simp only [analyzeBy, analyze, Workers.hire_ready, same]
  cases a.registry.enabled a.settings with
  | error e => rfl
  | ok factories =>
    cases (workers a.jobs).gather (units.map a.divide) with
    | error e => rfl
    | ok results => simp [Except.map, report, Analysis.unlisted, classResult]

variable {a}

theorem reports_of_divided {u : ClassUnit} {result : String × Partition}
    (h : i.Divided u result) :
    (a.classResult result).Reports a.showKept i.verdictOn u result.2.kept where
  name := h.1
  kept_in_order := h.2.kept_sublist
  filtered_in_order := h.2.filtered_sublist
  once := h.2.perm
  stays := h.2.kept_verdict
  goes := h.2.filtered_verdict
  keptCount := rfl
  filteredCount := rfl
  counts := h.2.length_eq
  rate := congrArg (share result.2.filteredCount) h.2.length_eq
  listed := rfl

theorem lengths_of_divided {units : List ClassUnit} {results : List (String × Partition)}
    (h : List.Forall₂ i.Divided units results) :
    Summary.total (results.map fun result => result.2.keptCount) +
        Summary.total (results.map fun result => result.2.filteredCount) =
      Summary.total (units.map fun u => u.mutations.length) := by
  induction h with
  | nil => rfl
  | cons divided _ ih =>
    have whole := divided.2.length_eq
    simp only [List.map_cons, Summary.total_cons]
    omega

theorem report_adds {units : List ClassUnit} {results : List (String × Partition)}
    (h : List.Forall₂ i.Divided units results) (features : List String) :
    (a.report features duration results).summary.Adds units
      (a.report features duration results).classes := by
  have whole := lengths_of_divided h
  constructor
  all_goals simp only [report, Summary.ofResults, List.map_map, List.length_map,
    Summary.filters_sum, Summary.mutators_total, Summary.mutators_filtered, Tally.sum_nil,
    Nat.zero_add]
  · exact h.length_eq.symm
  · exact whole
  · rfl
  · rfl

theorem analyzeBy_reports {factories : List Factory}
    (enabled : a.registry.enabled a.settings = .ok factories) {r : Analysis}
    (analyzed : a.analyzeBy workers units duration = .ok r) :
    List.Forall₂
        (fun u c => ∃ kept,
          c.Reports a.showKept (Registry.chainOf factories).verdictOn u kept) units r.classes ∧
      r.summary.Adds units r.classes ∧
      r.summary.features = factories.map (fun f => f.feature.name) ∧
      r.summary.duration = duration := by
  obtain ⟨results, divided, rfl⟩ :=
    (analyzeBy_ok_iff workers units duration enabled r).mp analyzed
  refine ⟨?_, report_adds duration divided _, rfl, rfl⟩
  rw [report, List.forall₂_map_right_iff]
  exact divided.imp fun u result h => ⟨_, reports_of_divided h⟩

theorem adds_of_analyzeBy {r : Analysis}
    (analyzed : a.analyzeBy workers units duration = .ok r) : r.summary.Adds units r.classes := by
  obtain ⟨factories, enabled⟩ := exists_enabled workers units duration analyzed
  exact (analyzeBy_reports workers units duration enabled analyzed).2.1

end Analyzer

theorem ClassResult.Reports.all_kept {showKept : Bool}
    {verdict : ClassTree → Mutation → Except Error (Option String)} {u : ClassUnit}
    {kept : List Mutation} {r : ClassResult} (h : r.Reports showKept verdict u kept)
    (never : ∀ c m name, verdict c m ≠ .ok (some name)) : kept = u.mutations ∧ r.filtered = [] := by
  have nothing : r.filtered = [] := by
    rw [List.eq_nil_iff_forall_not_mem]
    intro f hf
    exact never _ _ _ (h.goes f hf)
  refine ⟨?_, nothing⟩
  apply h.kept_in_order.eq_of_length
  have whole := h.once.length_eq
  simpa [nothing] using whole

theorem placed_iff_verdicts (u : ClassUnit) :
    (∀ m ∈ u.mutations, ∃ v, equivalentReturns.verdictOn u.class m = .ok v) ↔ u.Placed := by
  simp only [verdict_ok_iff, ClassUnit.Placed]

namespace Analyzer

def builtIn (settings : List Setting) (jobs : Nat) (showKept : Bool) : Analyzer :=
  { settings, jobs, showKept }

section BuiltIn

variable (workers : Nat → Gathering (String × Partition)) {settings : List Setting} (jobs : Nat)
  (showKept : Bool) (units : List ClassUnit) (duration : Elapsed)

theorem verdictOn_chain :
    (Registry.chainOf Registry.builtIn).verdictOn = equivalentReturns.verdictOn := by
  ext c m : 2
  exact Interceptor.verdictOn_single_group _ _ c m

theorem verdictOn_no_chain : (Registry.chainOf []).verdictOn = fun _ _ => .ok none := by
  ext c m : 2
  exact Interceptor.verdictOn_empty_group _ c m

theorem succeeds_iff (known : ∀ s ∈ settings, Registry.builtIn.Names s.name) :
    (∃ r, (builtIn settings jobs showKept).analyzeBy workers units duration = .ok r) ↔
      Setting.SwitchOff "FRETEQUIV" settings ∨ ∀ u ∈ units, u.Placed := by
  by_cases off : Setting.SwitchOff "FRETEQUIV" settings
  · have fine := analyzeBy_succeeds_iff workers units duration
      (a := builtIn settings jobs showKept) (Registry.builtIn_enabled_off known off)
    rw [fine, verdictOn_no_chain]
    exact iff_of_true (fun u _ m _ => ⟨none, rfl⟩) (Or.inl off)
  · have fine := analyzeBy_succeeds_iff workers units duration
      (a := builtIn settings jobs showKept) (Registry.builtIn_enabled_on known off)
    rw [fine, verdictOn_chain]
    simp only [placed_iff_verdicts, off, false_or]

theorem failure_unplaced (known : ∀ s ∈ settings, Registry.builtIn.Names s.name)
    {e : Error}
    (failed : (builtIn settings jobs showKept).analyzeBy workers units duration = .error e) :
    ∃ u ∈ units, ∃ m ∈ u.mutations, m.id.mutator ∈ Mutator.ofReturns ∧
      (∀ f ∈ u.class.methods, f.location ≠ m.id.location) ∧ e = .unresolved m.id.location := by
  have on : ¬ Setting.SwitchOff "FRETEQUIV" settings := by
    intro off
    obtain ⟨r, analyzed⟩ :=
      (succeeds_iff workers jobs showKept units duration known).mpr (Or.inl off)
    rw [failed] at analyzed
    cases analyzed
  obtain ⟨u, hu, failure⟩ := failure_of_analyzeBy workers units duration
    (a := builtIn settings jobs showKept) (Registry.builtIn_enabled_on known on) failed
  obtain ⟨m, hm, fails⟩ := firstFailure_mem failure
  rw [verdictOn_chain, verdict_error_iff] at fails
  obtain ⟨family, rfl, missing⟩ := fails
  exact ⟨u, hu, m, hm, family, missing, rfl⟩

variable {workers jobs showKept units duration}

theorem known_of_success {r : Analysis}
    (analyzed : (builtIn settings jobs showKept).analyzeBy workers units duration = .ok r) :
    ∀ s ∈ settings, Registry.builtIn.Names s.name := by
  rcases Registry.known_or_firstUnknown Registry.builtIn settings with known | ⟨s, unknown⟩
  · exact known
  · rw [analyzeBy_unknown workers units duration unknown] at analyzed
    cases analyzed

section Success

variable {r : Analysis}
  (analyzed : (builtIn settings jobs showKept).analyzeBy workers units duration = .ok r)
include analyzed

theorem reports_on (on : ¬ Setting.SwitchOff "FRETEQUIV" settings) :
    List.Forall₂ (fun u c => ∃ kept, c.Reports showKept equivalentReturns.verdictOn u kept)
        units r.classes ∧
      r.summary.Adds units r.classes ∧ r.summary.features = ["FRETEQUIV"] ∧
      r.summary.duration = duration := by
  have enabled := Registry.builtIn_enabled_on (known_of_success analyzed) on
  have reports := analyzeBy_reports workers units duration
    (a := builtIn settings jobs showKept) enabled analyzed
  rw [verdictOn_chain] at reports
  exact reports

theorem reports_off (off : Setting.SwitchOff "FRETEQUIV" settings) :
    List.Forall₂
        (fun u c => c.Reports showKept (fun _ _ => .ok none) u u.mutations ∧ c.filtered = [])
        units r.classes ∧
      r.summary.Adds units r.classes ∧ r.summary.features = [] ∧
      r.summary.duration = duration := by
  have enabled := Registry.builtIn_enabled_off (known_of_success analyzed) off
  obtain ⟨reports, rest⟩ := analyzeBy_reports workers units duration
    (a := builtIn settings jobs showKept) enabled analyzed
  refine ⟨reports.imp ?_, rest⟩
  rintro u c ⟨kept, reported⟩
  rw [verdictOn_no_chain] at reported
  obtain ⟨rfl, nothing⟩ := reported.all_kept (by simp)
  exact ⟨reported, nothing⟩

end Success

end BuiltIn

/-- A whole analysis with the built-in features. The first unknown setting stops it before the
units matter. Otherwise it needs the methods of the return mutations, unless their feature is off,
and lacks one where it fails. Every unit has its result, the sums are those of the units, and
neither the workers nor the listing of what stays changes anything else. -/
theorem analysis_of_units (workers : Nat → Gathering (String × Partition))
    (settings : List Setting) (jobs : Nat) (showKept : Bool) (units : List ClassUnit)
    (duration : Elapsed) :
    (∀ s, Registry.builtIn.FirstUnknown settings s →
      (builtIn settings jobs showKept).analyzeBy workers units duration =
        .error (.unknownFeature s.name)) ∧
    ((∀ s ∈ settings, Registry.builtIn.Names s.name) →
      ((∃ r, (builtIn settings jobs showKept).analyzeBy workers units duration = .ok r) ↔
        Setting.SwitchOff "FRETEQUIV" settings ∨ ∀ u ∈ units, u.Placed) ∧
      ∀ e, (builtIn settings jobs showKept).analyzeBy workers units duration = .error e →
        ∃ u ∈ units, ∃ m ∈ u.mutations, m.id.mutator ∈ Mutator.ofReturns ∧
          (∀ f ∈ u.class.methods, f.location ≠ m.id.location) ∧
          e = .unresolved m.id.location) ∧
    (∀ r, (builtIn settings jobs showKept).analyzeBy workers units duration = .ok r →
      (¬ Setting.SwitchOff "FRETEQUIV" settings →
        r.summary.features = ["FRETEQUIV"] ∧
        List.Forall₂
          (fun u c => ∃ kept, c.Reports showKept equivalentReturns.verdictOn u kept)
          units r.classes) ∧
      (Setting.SwitchOff "FRETEQUIV" settings →
        r.summary.features = [] ∧
        List.Forall₂
          (fun u c => c.Reports showKept (fun _ _ => .ok none) u u.mutations ∧ c.filtered = [])
          units r.classes) ∧
      r.summary.Adds units r.classes ∧ r.summary.duration = duration) ∧
    (builtIn settings jobs false).analyzeBy workers units duration =
      ((builtIn settings jobs true).analyzeBy workers units duration).map Analysis.unlisted ∧
    ∀ workers' jobs' r,
      (builtIn settings jobs showKept).analyzeBy workers units duration = .ok r ↔
        (builtIn settings jobs' showKept).analyzeBy workers' units duration = .ok r := by
  refine ⟨?_, ?_, ?_, ?_, ?_⟩
  · intro s unknown
    exact analyzeBy_unknown workers units duration unknown
  · intro known
    exact ⟨succeeds_iff workers jobs showKept units duration known,
      fun e => failure_unplaced workers jobs showKept units duration known⟩
  · intro r analyzed
    by_cases off : Setting.SwitchOff "FRETEQUIV" settings
    · obtain ⟨reports, adds, features, lasted⟩ := reports_off analyzed off
      exact ⟨fun on => absurd off on, fun _ => ⟨features, reports⟩, adds, lasted⟩
    · obtain ⟨reports, adds, features, lasted⟩ := reports_on analyzed off
      exact ⟨fun _ => ⟨features, reports⟩, fun contrary => absurd contrary off, adds, lasted⟩
  · exact analyzeBy_unlisted (builtIn settings jobs showKept) workers units duration
  · intro workers' jobs' r
    exact analyzeBy_workers (builtIn settings jobs showKept) workers units duration workers' jobs' r

end Analyzer

end MutantSieve
