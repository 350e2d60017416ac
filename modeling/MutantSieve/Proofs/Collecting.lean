import Mathlib.Data.List.Sort
import MutantSieve.Proofs.InputSet
import MutantSieve.Proofs.Success

/-!
# What an input set holds

The paths of the inputs are taken one by one. A file is named, a folder is walked through, and the
first path that is neither fails the whole. Paths are told apart by their components: the set holds
each named file once, and each unit file once that some walk yields and no pattern excludes, and a
file that is both counts as named. So neither order nor repetition of the inputs matters, and more
patterns take only discovered files away.
-/

set_option autoImplicit false

namespace MutantSieve

namespace InputSet

section Contents

variable (set : InputSet) (path : String)

def Holds : Prop := ∃ f ∈ set.files, Path.same f.1 path = true

def Discovered : Prop := ∃ f ∈ set.files, f.2 = true ∧ Path.same f.1 path = true

def values : List (List Path.Component × Bool) :=
  set.files.map fun f => (Path.components f.1, f.2)

end Contents

section Sources

variable (t : FileTree) (personal : IgnoreLevel) (exclude paths : List String)

def Matched (path : String) : Prop :=
  ∃ pattern ∈ exclude, ∃ glob, Glob.parse? Glob.exclusion pattern = some glob ∧
    Glob.matchesPath glob path = true

/-- The walk through a folder yields the path. The standard input, for which a single dash stands,
is not walked through. -/
def Yields (folder path : String) : Prop :=
  ∃ place entries, t.find folder = .folder place entries ∧ Path.same folder "-" = false ∧
    path ∈ Walk.files ⟨t, personal, folder, place⟩ entries

/-- The walk through a folder yields a unit file that no pattern excludes, neither by its path nor
by its path as seen from the folder. -/
structure Finds (folder path : String) : Prop where
  yields : Yields t personal folder path
  isFile : t.isFile path = true
  extension : Path.HasExtension path "json" ∨ Path.HasExtension path "toml"
  noConfig : Path.fileName? path ≠ some configName
  whole : ¬ Matched exclude path
  inside : ¬ Matched exclude (relative folder path)

def Named (path : String) : Prop :=
  ∃ input ∈ paths, t.isFile input = true ∧ Path.same input path = true

def Found (path : String) : Prop :=
  ∃ folder ∈ paths, ∃ file, Finds t personal exclude folder file ∧ Path.same file path = true

structure Contents (set : InputSet) : Prop where
  ordered : Ordered set.files
  named : ∀ path, (path, false) ∈ set.files → path ∈ paths ∧ t.isFile path = true
  found : ∀ path, (path, true) ∈ set.files → ∃ folder ∈ paths, Finds t personal exclude folder path
  holds : ∀ path, set.Holds path ↔ Named t paths path ∨ Found t personal exclude paths path
  discovered : ∀ path,
    set.Discovered path ↔ Found t personal exclude paths path ∧ ¬ Named t paths path

end Sources

section Order

variable {set set' : InputSet} {path : String}

theorem Ordered.discovered_iff (ordered : Ordered set.files) {f : String × Bool}
    (hf : f ∈ set.files) (here : Path.same f.1 path = true) :
    set.Discovered path ↔ f.2 = true := by
  constructor
  · rintro ⟨g, hg, marked, there⟩
    rw [ordered.eq_of_same hf hg (Path.same_trans here (Path.same_symm there))]
    exact marked
  · intro marked
    exact ⟨f, hf, marked, here⟩

theorem mem_values_iff (ordered : Ordered set.files) (path : String) (discovered : Bool) :
    (Path.components path, discovered) ∈ set.values ↔
      set.Holds path ∧ (discovered = true ↔ set.Discovered path) := by
  constructor
  · intro member
    obtain ⟨f, hf, same⟩ := List.mem_map.mp member
    obtain ⟨components, rfl⟩ := Prod.mk.inj same
    have here : Path.same f.1 path = true := Path.same_iff.mpr components
    exact ⟨⟨f, hf, here⟩, (ordered.discovered_iff hf here).symm⟩
  · rintro ⟨⟨f, hf, here⟩, mark⟩
    have marked : discovered = f.2 := by
      rw [Bool.eq_iff_iff, mark, ordered.discovered_iff hf here]
    exact List.mem_map.mpr ⟨f, hf, by rw [marked, Path.same_iff.mp here]⟩

theorem Ordered.values (ordered : Ordered set.files) :
    set.values.Pairwise fun v w => Path.compareComponents v.1 w.1 = .lt :=
  List.pairwise_map.mpr ordered

theorem values_eq (ordered : Ordered set.files) (ordered' : Ordered set'.files)
    (holds : ∀ path, set.Holds path ↔ set'.Holds path)
    (discovered : ∀ path, set.Discovered path ↔ set'.Discovered path) :
    set.values = set'.values := by
  have irrefl : Std.Irrefl fun v w : List Path.Component × Bool =>
      Path.compareComponents v.1 w.1 = .lt :=
    ⟨fun v before => by simp [Std.ReflCmp.compare_self] at before⟩
  have antisymm : Std.Antisymm fun v w : List Path.Component × Bool =>
      Path.compareComponents v.1 w.1 = .lt :=
    ⟨fun v w before after => by rw [Std.OrientedCmp.gt_of_lt before] at after; cases after⟩
  apply ordered.values.eq_of_mem_iff ordered'.values
  have spelled (set : InputSet) (v) (member : v ∈ set.values) :
      ∃ path, v = (Path.components path, v.2) := by
    obtain ⟨f, -, rfl⟩ := List.mem_map.mp member
    exact ⟨f.1, rfl⟩
  have alike (path : String) (mark : Bool) :
      (Path.components path, mark) ∈ set.values ↔ (Path.components path, mark) ∈ set'.values := by
    rw [mem_values_iff ordered, mem_values_iff ordered', holds, discovered]
  intro v
  constructor
  · intro member
    obtain ⟨path, same⟩ := spelled set v member
    rw [same] at member ⊢
    exact (alike path v.2).mp member
  · intro member
    obtain ⟨path, same⟩ := spelled set' v member
    rw [same] at member ⊢
    exact (alike path v.2).mpr member

end Order

section Gathering

variable (t : FileTree) (personal : IgnoreLevel) (globs : List (List Glob.Part))

def foundAt (folder : String) : List String :=
  match t.find folder with
  | .folder place entries => discover t personal globs folder place entries
  | _ => []

variable {paths : List String}

theorem gather_eq (h : ∀ path ∈ paths, t.exists? path = true) :
    gather t personal globs paths =
      .ok (paths.filter t.isFile, paths.flatMap (foundAt t personal globs)) := by
  induction paths with
  | nil => rfl
  | cons path rest ih =>
    obtain ⟨there, behind⟩ := List.forall_mem_cons.mp h
    rw [gather, ih behind, List.flatMap_cons, foundAt]
    cases place : t.find path <;>
      simp [FileTree.exists?, FileTree.isFile, FileTree.isFolder, place, Except.map] at there ⊢

theorem gather_missing {path : String}
    (h : paths.find? (fun p => !t.exists? p) = some path) :
    gather t personal globs paths = .error (.fileNotFound path) := by
  induction paths with
  | nil => cases h
  | cons p rest ih =>
    rw [gather]
    cases there : t.exists? p with
    | false =>
      simp only [List.find?_cons, there, Bool.not_false, Option.some.injEq] at h
      subst h
      cases place : t.find p <;>
        simp [FileTree.exists?, FileTree.isFile, FileTree.isFolder, place] at there ⊢
    | true =>
      simp only [List.find?_cons, there, Bool.not_true] at h
      rw [ih h]
      cases place : t.find p <;>
        simp [FileTree.exists?, FileTree.isFile, FileTree.isFolder, place, Except.map] at there ⊢

variable {globs} {exclude : List String}

theorem readGlobs_matched (read : readGlobs exclude = .ok globs) (path : String) :
    excluded globs path = true ↔ Matched exclude path := by
  induction exclude generalizing globs with
  | nil =>
    cases read
    simp [excluded, Matched]
  | cons pattern rest ih =>
    obtain ⟨glob, others, parsed, later, rfl⟩ := (readGlobs_cons_ok_iff pattern rest globs).mp read
    have behind := ih later
    rw [excluded] at behind ⊢
    rw [List.any_cons, Bool.or_eq_true, behind]
    simp only [Matched, List.exists_mem_cons_iff, parsed, Option.some.injEq, exists_eq_left']

theorem globs_matched (compiled : InputSet.globs exclude = .ok globs) (path : String) :
    excluded globs path = true ↔ Matched exclude path := by
  rw [InputSet.globs] at compiled
  cases read : readGlobs exclude with
  | error e =>
    rw [read] at compiled
    cases compiled
  | ok found =>
    rw [read] at compiled
    dsimp only at compiled
    split at compiled
    · cases compiled
    · cases compiled
      exact readGlobs_matched read path

theorem mem_foundAt_iff (compiled : InputSet.globs exclude = .ok globs) (folder path : String) :
    path ∈ foundAt t personal globs folder ↔ Finds t personal exclude folder path := by
  have matched := globs_matched compiled
  have kept : accepts globs folder path = true ↔
      (Path.HasExtension path "json" ∨ Path.HasExtension path "toml") ∧
        Path.fileName? path ≠ some configName ∧
        ¬ Matched exclude (relative folder path) ∧ ¬ Matched exclude path := by
    rw [← Path.unitFormat_isSome_iff]
    simp [accepts, ← matched, and_assoc]
  constructor
  · intro member
    rw [foundAt] at member
    split at member
    case h_1 place entries there =>
      rw [discover] at member
      split at member
      · cases member
      next noDash =>
        obtain ⟨walked, passed⟩ := List.mem_filter.mp member
        rw [Bool.and_eq_true, kept] at passed
        obtain ⟨isFile, extension, noConfig, inside, whole⟩ := passed
        have dash := Bool.eq_false_iff.mpr noDash
        exact ⟨⟨place, entries, there, dash, walked⟩, isFile, extension, noConfig, whole, inside⟩
    case h_2 => cases member
  · rintro ⟨⟨place, entries, there, noDash, walked⟩, isFile, extension, noConfig, whole, inside⟩
    rw [foundAt, there]
    dsimp only
    rw [discover, noDash, if_neg Bool.false_ne_true]
    refine List.mem_filter.mpr ⟨walked, ?_⟩
    rw [isFile, Bool.true_and, kept]
    exact ⟨extension, noConfig, inside, whole⟩

end Gathering

section Collecting

variable {t : FileTree} {personal : IgnoreLevel} {exclude paths : List String}

def assembled (named found : List String) : InputSet :=
  ⟨insertAll (found.map fun p => (p, true)) (insertAll (named.map fun p => (p, false)) [])⟩

section Assembled

variable {named found : List String} {path : String}

theorem assembled_ordered : Ordered (assembled named found).files :=
  (ordered_nil.insertAll _).insertAll _

theorem mem_of_assembled {mark : Bool} (h : (path, mark) ∈ (assembled named found).files) :
    path ∈ bif mark then found else named := by
  rcases mem_of_insertAll h with member | member
  · obtain ⟨p, isFound, same⟩ := List.mem_map.mp member
    cases same
    exact isFound
  · rcases mem_of_insertAll member with member | none
    · obtain ⟨p, isNamed, same⟩ := List.mem_map.mp member
      cases same
      exact isNamed
    · cases none

theorem assembled_of_named (h : path ∈ named) :
    ∃ p, (p, false) ∈ (assembled named found).files ∧ Path.same p path = true := by
  have marked : (path, false) ∈ named.map fun p => (p, false) := List.mem_map.mpr ⟨path, h, rfl⟩
  obtain ⟨f, member, same⟩ := exists_same_insertAll marked
  rcases mem_of_insertAll member with origin | none
  · obtain ⟨p, -, rfl⟩ := List.mem_map.mp origin
    exact ⟨p, mem_insertAll_of_mem member, same⟩
  · cases none

theorem holds_assembled_iff :
    (assembled named found).Holds path ↔
      (∃ p ∈ named, Path.same p path = true) ∨ ∃ p ∈ found, Path.same p path = true := by
  constructor
  · rintro ⟨⟨p, _ | _⟩, member, same⟩
    · exact .inl ⟨p, mem_of_assembled member, same⟩
    · exact .inr ⟨p, mem_of_assembled member, same⟩
  · rintro (⟨p, isNamed, same⟩ | ⟨p, isFound, same⟩)
    · obtain ⟨q, member, alike⟩ := assembled_of_named isNamed
      exact ⟨_, member, Path.same_trans alike same⟩
    · have marked : (p, true) ∈ found.map fun p => (p, true) := List.mem_map.mpr ⟨p, isFound, rfl⟩
      obtain ⟨f, member, alike⟩ := exists_same_insertAll marked
      exact ⟨f, member, Path.same_trans alike same⟩

theorem discovered_assembled_iff :
    (assembled named found).Discovered path ↔
      (∃ p ∈ found, Path.same p path = true) ∧ ¬ ∃ p ∈ named, Path.same p path = true := by
  constructor
  · rintro ⟨⟨p, _⟩, member, rfl, same⟩
    refine ⟨⟨p, mem_of_assembled member, same⟩, ?_⟩
    rintro ⟨q, isNamed, same'⟩
    obtain ⟨r, member', alike⟩ := assembled_of_named isNamed
    have marked := assembled_ordered.discovered_iff member' (Path.same_trans alike same')
    exact Bool.false_ne_true (marked.mp ⟨_, member, rfl, same⟩)
  · rintro ⟨isFound, notNamed⟩
    obtain ⟨⟨p, _ | _⟩, member, same⟩ := holds_assembled_iff.mpr (.inr isFound)
    · exact absurd ⟨p, mem_of_assembled member, same⟩ notNamed
    · exact ⟨_, member, rfl, same⟩

end Assembled

theorem ofPaths_ok {environment : List (String × String)}
    (compile : ∀ pattern ∈ exclude, TakesPattern pattern)
    (there : ∀ path ∈ paths, t.exists? path = true) :
    ∃ set, ofPaths t environment paths exclude = .ok set ∧
      Contents t (PersonalRules.level t environment) exclude paths set := by
  obtain ⟨globs, compiled⟩ := (globs_ok_iff exclude).mpr compile
  have gathered := gather_eq t (PersonalRules.level t environment) globs there
  have finds := mem_foundAt_iff t (PersonalRules.level t environment) compiled
  have named (path : String) :
      (∃ p ∈ paths.filter t.isFile, Path.same p path = true) ↔ Named t paths path := by
    simp only [List.mem_filter, and_assoc, Named]
  have found (path : String) :
      (∃ p ∈ paths.flatMap (foundAt t (PersonalRules.level t environment) globs),
        Path.same p path = true) ↔
      Found t (PersonalRules.level t environment) exclude paths path := by
    simp only [List.mem_flatMap, finds, Found]
    constructor
    · rintro ⟨p, ⟨folder, input, isFound⟩, same⟩
      exact ⟨folder, input, p, isFound, same⟩
    · rintro ⟨folder, input, p, isFound, same⟩
      exact ⟨p, ⟨folder, input, isFound⟩, same⟩
  refine ⟨assembled _ _, by rw [ofPaths, compiled]; dsimp only; rw [gathered]; rfl, ?_⟩
  constructor
  · exact assembled_ordered
  · intro path member
    exact List.mem_filter.mp (mem_of_assembled member)
  · intro path member
    obtain ⟨folder, input, isFound⟩ := List.mem_flatMap.mp (mem_of_assembled member)
    exact ⟨folder, input, (finds folder path).mp isFound⟩
  · intro path
    rw [holds_assembled_iff, named, found]
  · intro path
    rw [discovered_assembled_iff, named, found]

theorem ofPaths_missing {environment : List (String × String)} {path : String}
    (compile : ∀ pattern ∈ exclude, TakesPattern pattern)
    (missing : paths.find? (fun p => !t.exists? p) = some path) :
    ofPaths t environment paths exclude = .error (.fileNotFound path) := by
  obtain ⟨globs, compiled⟩ := (globs_ok_iff exclude).mpr compile
  rw [ofPaths, compiled]
  dsimp only
  rw [gather_missing t _ globs missing]
  rfl

section Comparing

variable {paths' exclude' : List String} {set set' : InputSet} {path : String}

theorem named_congr (same : ∀ p, p ∈ paths' ↔ p ∈ paths) :
    Named t paths' path ↔ Named t paths path := by
  simp only [Named, same]

theorem found_congr (same : ∀ p, p ∈ paths' ↔ p ∈ paths) :
    Found t personal exclude paths' path ↔ Found t personal exclude paths path := by
  simp only [Found, same]

theorem Matched.mono (more : exclude ⊆ exclude') (h : Matched exclude path) :
    Matched exclude' path := by
  obtain ⟨pattern, given, matched⟩ := h
  exact ⟨pattern, more given, matched⟩

theorem Finds.mono {folder : String} (more : exclude ⊆ exclude')
    (h : Finds t personal exclude' folder path) : Finds t personal exclude folder path :=
  { h with
    whole := fun matched => h.whole (matched.mono more)
    inside := fun matched => h.inside (matched.mono more) }

theorem Found.mono (more : exclude ⊆ exclude') (h : Found t personal exclude' paths path) :
    Found t personal exclude paths path := by
  obtain ⟨folder, input, file, isFound, same⟩ := h
  exact ⟨folder, input, file, isFound.mono more, same⟩

theorem Contents.values_eq (h : Contents t personal exclude paths set)
    (h' : Contents t personal exclude paths' set') (same : ∀ p, p ∈ paths' ↔ p ∈ paths) :
    set'.values = set.values := by
  apply InputSet.values_eq h'.ordered h.ordered
  · intro path
    rw [h'.holds, h.holds, named_congr same, found_congr same]
  · intro path
    rw [h'.discovered, h.discovered, named_congr same, found_congr same]

theorem Contents.named_iff (h : Contents t personal exclude paths set) (path : String) :
    set.Holds path ∧ ¬ set.Discovered path ↔ Named t paths path := by
  rw [h.holds, h.discovered]
  tauto

end Comparing

/-- What becomes of some inputs under patterns that can all be read. The first that is neither a
file nor a folder is the answer. Otherwise the set holds, each once and in the order of paths, the
files among the inputs and what is found in the folders among them; just the second, where they are
not also the first, count as discovered. The order of the inputs and repetitions among them make no
difference, and further patterns leave the named files and take away some of the others. -/
theorem ofPaths_collects (t : FileTree) (environment : List (String × String))
    (paths exclude : List String) (compile : ∀ pattern ∈ exclude, TakesPattern pattern) :
    (∀ path, paths.find? (fun p => !t.exists? p) = some path →
      ofPaths t environment paths exclude = .error (.fileNotFound path)) ∧
    (paths.find? (fun p => !t.exists? p) = none →
      ∃ set, ofPaths t environment paths exclude = .ok set ∧
        Contents t (PersonalRules.level t environment) exclude paths set ∧
        (∀ paths', (∀ p, p ∈ paths' ↔ p ∈ paths) →
          ∃ set', ofPaths t environment paths' exclude = .ok set' ∧ set'.values = set.values) ∧
        ∀ exclude', exclude ⊆ exclude' → (∀ pattern ∈ exclude', TakesPattern pattern) →
          ∃ set', ofPaths t environment paths exclude' = .ok set' ∧
            (∀ path, set'.Discovered path → set.Discovered path) ∧
            ∀ path, set'.Holds path ∧ ¬ set'.Discovered path ↔
              set.Holds path ∧ ¬ set.Discovered path) := by
  refine ⟨fun path => ofPaths_missing compile, fun all => ?_⟩
  have there : ∀ path ∈ paths, t.exists? path = true := by
    simpa using List.find?_eq_none.mp all
  obtain ⟨set, made, contents⟩ := ofPaths_ok compile there
  refine ⟨set, made, contents, ?_, ?_⟩
  · intro paths' same
    have there' : ∀ path ∈ paths', t.exists? path = true :=
      fun path member => there path ((same path).mp member)
    obtain ⟨set', made', contents'⟩ := ofPaths_ok compile there'
    exact ⟨set', made', contents.values_eq contents' same⟩
  · intro exclude' more compile'
    obtain ⟨set', made', contents'⟩ := ofPaths_ok compile' there
    refine ⟨set', made', fun path => ?_, fun path => ?_⟩
    · rw [contents'.discovered, contents.discovered]
      exact And.imp_left (Found.mono more)
    · rw [contents'.named_iff, contents.named_iff]

def unitTree : FileTree :=
  { root := [("units", .folder
      [("a.json", .file "[]".toUTF8), ("b.toml", .file "".toUTF8),
       ("build", .folder [("c.json", .file "[]".toUTF8)]), ("notes.txt", .file "".toUTF8),
       ("retfilter.toml", .file "".toUTF8)])]
    here := [] }

def unitSet : InputSet :=
  ⟨[("units/a.json", false), ("units/b.toml", true), ("units//build/c.json", true)]⟩

/-- What is excluded as seen from the one folder is found in the other. -/
theorem overlaps_collected :
    (∀ pattern ∈ ["build/**"], TakesPattern pattern) ∧
      ["units", "units/a.json", "units//build", "units"].find?
        (fun p => !unitTree.exists? p) = none ∧
      ofPaths unitTree [] ["units", "units/a.json", "units//build", "units"] ["build/**"] =
        .ok unitSet ∧
      Contents unitTree (PersonalRules.level unitTree []) ["build/**"]
        ["units", "units/a.json", "units//build", "units"] unitSet := by
  have compile : ∀ pattern ∈ ["build/**"], TakesPattern pattern := by
    rw [List.forall_mem_singleton]
    exact ⟨_, rfl, by decide +kernel⟩
  have there : ["units", "units/a.json", "units//build", "units"].find?
      (fun p => !unitTree.exists? p) = none := by decide +kernel
  have files : ofPaths unitTree [] ["units", "units/a.json", "units//build", "units"]
      ["build/**"] = .ok unitSet := toOption_eq_some_iff.mp (by decide +kernel)
  obtain ⟨set, made, contents, -⟩ := (ofPaths_collects unitTree [] _ _ compile).2 there
  obtain rfl := Except.ok.inj (files.symm.trans made)
  exact ⟨compile, there, files, contents⟩

end Collecting

end InputSet

end MutantSieve
