import MutantSieve.Proofs.LoadOrder

/-!
# Errors that are told

Only one error breaks a run off without being told: a variable of the environment whose value is cut
inside a character. It comes from the loading of a configuration and from no other stage.
-/

set_option autoImplicit false

namespace MutantSieve

def Error.Told (e : Error) : Prop := e.isFatal = false

theorem mapM_eq_none_iff {α β : Type} {f : α → Option β} {xs : List α} :
    xs.mapM f = none ↔ ∃ x ∈ xs, f x = none := by
  induction xs with
  | nil => simp
  | cons x xs ih =>
    rw [List.mapM_cons]
    simp only [List.mem_cons, exists_eq_or_imp, ← ih]
    cases f x with
    | none => simp
    | some y => cases xs.mapM f <;> simp

namespace Config

def Torn (environment : List (String × String)) : Prop :=
  ∃ v ∈ environment, ∃ key, variableKey v.1 = some key ∧ variableValue v.2 = none

theorem environmentLayer_eq_none_iff (environment : List (String × String)) :
    environmentLayer environment = none ↔ Torn environment := by
  simp only [environmentLayer, Option.map_eq_none_iff, mapM_eq_none_iff, List.mem_filterMap,
    variableLayer, Torn]
  constructor
  · rintro ⟨e, ⟨v, member, set⟩, unreadable⟩
    obtain ⟨key, named, rfl⟩ := Option.map_eq_some_iff.mp set
    exact ⟨v, member, key, named, unreadable⟩
  · rintro ⟨v, member, key, named, unreadable⟩
    exact ⟨(key, v.2), ⟨v, member, by rw [named]; rfl⟩, unreadable⟩

variable {t : FileTree} {environment : List (String × String)} {e : Error}

theorem readFile_told {path : String} (h : readFile t path = .error e) : e.Told := by
  rw [readFile] at h
  split at h
  · cases h
    rfl
  split at h
  · cases h
  · cases h
    rfl

theorem projectLayers_told {paths : List String} (h : projectLayers t paths = .error e) :
    e.Told := by
  induction paths with
  | nil => cases h
  | cons path rest ih =>
    rw [projectLayers] at h
    split at h
    · next failed =>
      cases h
      rw [projectLayer] at failed
      split at failed
      · exact readFile_told failed
      · cases failed
    · exact ih (map_eq_error_iff.mp h)

theorem build_told {layers : List Data} (h : build layers = .error e) : e.Told := by
  rw [build] at h
  split at h
  · cases h
  · cases h
    rfl

theorem withEnvironment_torn (torn : Torn environment) (layers : Except Error (List Data)) :
    withEnvironment environment layers = .error (.config .tornText) := by
  rw [withEnvironment.eq_def, (environmentLayer_eq_none_iff environment).mpr torn]

theorem withEnvironment_told {layers : Except Error (List Data)} (whole : ¬ Torn environment)
    (layersTold : ∀ e, layers = .error e → e.Told)
    (h : withEnvironment environment layers = .error e) : e.Told := by
  rw [withEnvironment.eq_def] at h
  split at h
  · next torn => exact absurd ((environmentLayer_eq_none_iff environment).mp torn) whole
  · cases h
    exact layersTold e rfl
  · exact build_told h

end Config

theorem Setting.parse_told {text : String} {e : Error} (h : parse text = .error e) : e.Told := by
  rw [parse] at h
  split at h
  · cases h
  · cases h
    rfl

theorem Setting.parseAll_told {texts : List String} {e : Error} (h : parseAll texts = .error e) :
    e.Told := by
  induction texts with
  | nil => cases h
  | cons text rest ih =>
    rw [parseAll] at h
    split at h
    · exact ih h
    split at h
    · next unreadable =>
      cases h
      exact parse_told unreadable
    split at h
    · next failed =>
      cases h
      exact ih failed
    · cases h

theorem Registry.describe_told {r : Registry} {settings : List Setting} {e : Error}
    (h : r.describe settings = .error e) : e.Told := by
  obtain ⟨s, -, rfl⟩ := resolve_eq_error_iff.mp (map_eq_error_iff.mp h)
  rfl

namespace InputSet

theorem readGlobs_told {patterns : List String} {e : Error} (h : readGlobs patterns = .error e) :
    e.Told := by
  induction patterns with
  | nil => cases h
  | cons pattern rest ih =>
    rw [readGlobs] at h
    split at h
    · cases h
      rfl
    · exact ih (map_eq_error_iff.mp h)

theorem globs_told {patterns : List String} {e : Error} (h : globs patterns = .error e) :
    e.Told := by
  rw [globs] at h
  split at h
  · next failed =>
    cases h
    exact readGlobs_told failed
  split at h
  · cases h
    rfl
  · cases h

theorem gather_told {t : FileTree} {personal : IgnoreLevel} {exclude : List (List Glob.Part)}
    {paths : List String} {e : Error} (h : gather t personal exclude paths = .error e) :
    e.Told := by
  induction paths with
  | nil => cases h
  | cons path rest ih =>
    rw [gather] at h
    split at h
    · exact ih (map_eq_error_iff.mp h)
    · exact ih (map_eq_error_iff.mp h)
    · cases h
      rfl
    · cases h
      rfl

theorem ofPaths_told {t : FileTree} {environment : List (String × String)}
    {paths exclude : List String} {e : Error}
    (h : ofPaths t environment paths exclude = .error e) : e.Told := by
  rw [ofPaths] at h
  split at h
  · next failed =>
    cases h
    exact globs_told failed
  · exact gather_told (map_eq_error_iff.mp h)

end InputSet

namespace ClassUnit

variable {t : FileTree} {e : Error}

theorem load_told {path : String} (h : load t path = .error e) : e.Told := by
  rcases load_eq_error_iff.mp h with ⟨-, rfl⟩ | ⟨format, -, unread | ⟨text, refusal, -, -, rfl⟩⟩
  · rfl
  · rcases FileTree.of_readText_error unread with rfl | rfl <;> rfl
  · rfl

theorem loadFiles_told {files : List (String × Bool)} (h : loadFiles t files = .error e) :
    e.Told := by
  obtain ⟨front, f, behind, -, -, failed, -⟩ := loadFiles_error_iff.mp h
  exact load_told failed

end ClassUnit

theorem Analyzer.builtIn_told {settings : List Setting} {jobs : Nat} {showKept : Bool}
    {units : List ClassUnit} {duration : Elapsed} {team : Workers (String × Partition)} {e : Error}
    (h : (builtIn settings jobs showKept).analyze units duration team = .error e) : e.Told := by
  rcases Registry.known_or_firstUnknown Registry.builtIn settings with known | ⟨s, first⟩
  · rcases of_analyze_error known h with unhired | ⟨g, failed⟩
    · obtain ⟨-, reason, -, rfl⟩ := Workers.of_hire_error unhired
      rfl
    · obtain ⟨u, -, m, -, -, -, rfl⟩ := failure_unplaced _ jobs showKept units duration known failed
      rfl
  · rw [analyze_unknown first] at h
    cases h
    rfl

namespace CommandLine.Program

variable {w : World} {i : Invocation} {c : Config} {inputs : List String} {e : Error}

theorem statuses_told (h : statuses c = .error e) : e.Told := by
  rcases bind_eq_error_iff.mp h with unreadable | ⟨settings, -, unknown⟩
  · exact Setting.parseAll_told unreadable
  · exact Registry.describe_told unknown

theorem filterFails_told (h : FilterFails w c inputs e) : e.Told := by
  cases h with
  | collecting failed => exact InputSet.ofPaths_told failed
  | loading set _ failed => exact ClassUnit.loadFiles_told failed
  | reading units _ failed => exact Setting.parseAll_told failed
  | analyzing units settings _ _ failed => exact Analyzer.builtIn_told failed

end CommandLine.Program

end MutantSieve
