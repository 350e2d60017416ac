import MutantSieve.Proofs.Program
import MutantSieve.Proofs.SettingText

/-!
# When the stages succeed

Each stage goes through a list and stops at the first member that it cannot take. So it succeeds
just when it can take every member, and a filter succeeds when this holds of its patterns, its
inputs, the files in them, its settings and the mutations.
-/

set_option autoImplicit false

namespace MutantSieve

section Settings

def Registry.Takes (r : Registry) (text : String) : Prop :=
  Setting.Blank text ∨ ∃ s, Setting.read text.toList = some s ∧ r.Names s.name

theorem Registry.takes_iff (r : Registry) (texts : List String) :
    (∃ settings, Setting.parseAll texts = .ok settings ∧
        ∀ s ∈ settings, r.Names s.name) ↔ ∀ text ∈ texts, r.Takes text := by
  induction texts with
  | nil => simp [Setting.parseAll]
  | cons text rest ih =>
    rw [List.forall_mem_cons, ← ih]
    by_cases blank : Setting.Blank text
    · rw [Setting.parseAll_blank blank]
      exact (and_iff_right (.inl blank)).symm
    · simp only [Setting.parseAll_cons_ok_iff blank, Registry.Takes, blank, false_or]
      constructor
      · rintro ⟨_, ⟨s, others, readable, parsed, rfl⟩, known⟩
        rw [List.forall_mem_cons] at known
        exact ⟨⟨s, readable, known.1⟩, others, parsed, known.2⟩
      · rintro ⟨⟨s, readable, known⟩, others, parsed, rest_known⟩
        exact ⟨_, ⟨s, others, readable, parsed, rfl⟩, List.forall_mem_cons.mpr ⟨known, rest_known⟩⟩

theorem Registry.describe_ok_iff (r : Registry) (settings : List Setting) :
    (∃ list, r.describe settings = .ok list) ↔ ∀ s ∈ settings, r.Names s.name := by
  simp only [describe, map_eq_ok_iff, resolve_eq_ok_iff]
  constructor
  · rintro ⟨_, _, ⟨known, -⟩, -⟩
    exact known
  · intro known
    exact ⟨_, _, ⟨known, rfl⟩, rfl⟩

end Settings

namespace InputSet

def TakesPattern (pattern : String) : Prop :=
  ∃ glob, Glob.parse? Glob.exclusion pattern = some glob ∧ Glob.isTooDeep glob = false

theorem readGlobs_cons_ok_iff (pattern : String) (rest : List String)
    (found : List (List Glob.Part)) :
    readGlobs (pattern :: rest) = .ok found ↔
      ∃ glob others, Glob.parse? Glob.exclusion pattern = some glob ∧
        readGlobs rest = .ok others ∧ found = glob :: others := by
  rw [readGlobs]
  cases Glob.parse? Glob.exclusion pattern with
  | none => simp
  | some glob =>
    rw [map_eq_ok_iff]
    constructor
    · rintro ⟨others, read, rfl⟩
      exact ⟨glob, others, rfl, read, rfl⟩
    · rintro ⟨_, others, same, read, rfl⟩
      cases same
      exact ⟨others, read, rfl⟩

theorem readGlobs_takes_iff (patterns : List String) :
    (∃ found, readGlobs patterns = .ok found ∧ ∀ glob ∈ found, Glob.isTooDeep glob = false) ↔
      ∀ pattern ∈ patterns, TakesPattern pattern := by
  induction patterns with
  | nil => simp [readGlobs]
  | cons pattern rest ih =>
    rw [List.forall_mem_cons, ← ih]
    simp only [readGlobs_cons_ok_iff, TakesPattern]
    constructor
    · rintro ⟨_, ⟨glob, others, parsed, read, rfl⟩, shallow⟩
      rw [List.forall_mem_cons] at shallow
      exact ⟨⟨glob, parsed, shallow.1⟩, others, read, shallow.2⟩
    · rintro ⟨⟨glob, parsed, shallow⟩, others, read, rest_shallow⟩
      exact ⟨_, ⟨glob, others, parsed, read, rfl⟩,
        List.forall_mem_cons.mpr ⟨shallow, rest_shallow⟩⟩

theorem globs_ok_iff (patterns : List String) :
    (∃ found, globs patterns = .ok found) ↔ ∀ pattern ∈ patterns, TakesPattern pattern := by
  rw [← readGlobs_takes_iff]
  simp only [globs]
  cases readGlobs patterns with
  | error e => simp
  | ok found =>
    have shallow : (∀ glob ∈ found, Glob.isTooDeep glob = false) ↔
        found.any Glob.isTooDeep = false := by simp
    cases deep : found.any Glob.isTooDeep <;> simp [shallow, deep]

theorem gather_ok_iff (t : FileTree) (personal : IgnoreLevel) (exclude : List (List Glob.Part))
    (paths : List String) :
    (∃ found, gather t personal exclude paths = .ok found) ↔
      ∀ path ∈ paths, t.exists? path = true := by
  induction paths with
  | nil => simp [gather]
  | cons path rest ih =>
    rw [List.forall_mem_cons, ← ih, gather]
    cases place : t.find path <;>
      simp only [FileTree.exists?, FileTree.isFile, FileTree.isFolder, place, exists_map_ok_iff] <;>
      simp

theorem ofPaths_ok_iff (t : FileTree) (environment : List (String × String))
    (paths exclude : List String) :
    (∃ set, ofPaths t environment paths exclude = .ok set) ↔
      (∀ pattern ∈ exclude, TakesPattern pattern) ∧ ∀ path ∈ paths, t.exists? path = true := by
  rw [← globs_ok_iff, ofPaths]
  cases globs exclude with
  | error e => simp
  | ok found =>
    simp only [exists_map_ok_iff, gather_ok_iff]
    exact (and_iff_right ⟨found, rfl⟩).symm

end InputSet

namespace ClassUnit

/-- A file of an input set is a list of units, or it was discovered and turns out to be none. -/
def Takes (t : FileTree) (f : String × Bool) : Prop :=
  (∃ units, load t f.1 = .ok units) ∨
    f.2 = true ∧ ∃ path check, load t f.1 = .error (.notUnits path check)

theorem passesOver_iff (discovered : Bool) (e : Error) :
    passesOver discovered e = true ↔
      discovered = true ∧ ∃ path check, e = .notUnits path check := by
  cases e <;> simp [passesOver]

theorem loadAll_ok_iff (t : FileTree) (set : InputSet) :
    (∃ units, loadAll t set = .ok units) ↔ ∀ f ∈ set.files, Takes t f := by
  rw [loadAll]
  induction set.files with
  | nil => simp [loadFiles]
  | cons f rest ih =>
    rw [List.forall_mem_cons, ← ih, loadFiles, Takes]
    cases load t f.1 with
    | ok units => simp [exists_map_ok_iff]
    | error e =>
      simp only [Except.error.injEq, ← passesOver_iff f.2 e, reduceCtorEq, exists_false, false_or]
      by_cases passed : passesOver f.2 e = true
      · rw [if_pos passed]
        exact (and_iff_right passed).symm
      · rw [if_neg passed]
        simp [passed]

end ClassUnit

namespace CommandLine.Program

variable {w : World} {c : Config} {inputs : List String}

theorem statuses_ok_iff (c : Config) :
    (∃ list, statuses c = .ok list) ↔ ∀ text ∈ c.settings, Registry.builtIn.Takes text := by
  rw [← Registry.takes_iff]
  simp only [statuses, bind_eq_ok_iff, ← Registry.describe_ok_iff]
  constructor
  · rintro ⟨list, settings, parsed, described⟩
    exact ⟨settings, parsed, list, described⟩
  · rintro ⟨settings, parsed, list, described⟩
    exact ⟨list, settings, parsed, described⟩

theorem Loads.unique {units units' : List ClassUnit} (h : Loads w c inputs units)
    (h' : Loads w c inputs units') : units = units' := by
  obtain ⟨set, collected, loaded⟩ := h
  obtain ⟨set', collected', loaded'⟩ := h'
  rw [collected, Except.ok.injEq] at collected'
  subst collected'
  rw [loaded, Except.ok.injEq] at loaded'
  exact loaded'

/-- A filter can take all that it is given: the patterns, the paths of the inputs, the files in
them, the settings and, while the feature is on, the mutations. And the workers that it asks for
start. -/
structure Takes (w : World) (c : Config) (inputs : List String) : Prop where
  patterns : ∀ pattern ∈ c.exclude, InputSet.TakesPattern pattern
  paths : ∀ path ∈ inputs, w.files.exists? path = true
  files : ∀ set, InputSet.ofPaths w.files w.environment inputs c.exclude = .ok set →
    ∀ f ∈ set.files, ClassUnit.Takes w.files f
  settings : ∀ text ∈ c.settings, Registry.builtIn.Takes text
  mutations : ∀ units settings, Loads w c inputs units → c.parsedSettings = .ok settings →
    Setting.SwitchOff "FRETEQUIV" settings ∨ ∀ u ∈ units, u.Placed
  workers : w.workers.Starts c.jobs

theorem takes_of_filters {a : Analysis} (h : Filters w c inputs a) : Takes w c inputs := by
  obtain ⟨units, settings, loads, parsed, analyzed⟩ := h
  obtain ⟨g, hired, analyzed⟩ := Analyzer.analyze_ok_iff.mp analyzed
  obtain ⟨set, collected, loaded⟩ := loads
  have given := (InputSet.ofPaths_ok_iff _ _ _ _).mp ⟨set, collected⟩
  have known := Analyzer.known_of_success analyzed
  constructor
  · exact given.1
  · exact given.2
  · intro set' collected'
    rw [collected, Except.ok.injEq] at collected'
    subst collected'
    exact (ClassUnit.loadAll_ok_iff w.files set).mp ⟨units, loaded⟩
  · exact (Registry.takes_iff _ _).mp ⟨settings, parsed, known⟩
  · intro units' settings' loads' parsed'
    have same := loads'.unique ⟨set, collected, loaded⟩
    rw [parsed, Except.ok.injEq] at parsed'
    subst same parsed'
    exact (Analyzer.succeeds_iff _ _ _ _ _ known).mp ⟨a, analyzed⟩
  · exact Workers.starts_iff.mpr ⟨g, hired⟩

theorem filters_of_takes (h : Takes w c inputs) : ∃ a, Filters w c inputs a := by
  obtain ⟨set, collected⟩ :=
    (InputSet.ofPaths_ok_iff _ w.environment _ _).mpr ⟨h.patterns, h.paths⟩
  obtain ⟨units, loaded⟩ := (ClassUnit.loadAll_ok_iff w.files set).mpr (h.files set collected)
  obtain ⟨settings, parsed, known⟩ := (Registry.takes_iff _ _).mpr h.settings
  have loads : Loads w c inputs units := ⟨set, collected, loaded⟩
  have placed := h.mutations units settings loads parsed
  obtain ⟨g, hired⟩ := Workers.starts_iff.mp h.workers
  obtain ⟨a, analyzed⟩ :=
    (Analyzer.succeeds_iff _ c.jobs c.showKept units w.elapsed known).mpr placed
  exact ⟨a, units, settings, loads, parsed, Analyzer.analyze_ok_iff.mpr ⟨g, hired, analyzed⟩⟩

end CommandLine.Program

end MutantSieve
