import Mathlib.Control.Monad.Basic
import MutantSieve.Config.Load
import MutantSieve.Proofs.FileTree

/-!
# Where the configuration of a project comes from

For each of its two files a project is given the nearest file of that path, seen from the current
folder and the folders around it; only an absolute path leads to one file at most. The configuration
depends on these files and on the variables with the common start of the names, and on nothing else.
A folder of files of its own is all that counts where no other file comes before or takes the place
of them.
-/

set_option autoImplicit false

namespace MutantSieve

open Config

namespace Path

theorem isAbsolute_join {folder name : String} (h : IsName name) :
    isAbsolute (join folder name) = isAbsolute folder := by
  by_cases named : folder = ""
  · have inside : join folder name = name := by simp [join, named]
    rw [inside, h.relative, named]
    rfl
  · have front : ∀ s : String, isAbsolute (folder ++ s) = isAbsolute folder := by
      intro s
      have filled : folder.toList ≠ [] := by simpa using named
      obtain ⟨c, r, split⟩ := List.exists_cons_of_ne_nil filled
      rw [isAbsolute, isAbsolute, String.toList_append, split]
      rfl
    rcases join_cases named h with ⟨-, -, joined⟩ | joined <;> rw [joined, front]

end Path

namespace Config

section Views

variable {t : FileTree} {path : String}

theorem seenFrom_here (t : FileTree) : seenFrom t t.here.length = t := by
  rw [seenFrom, List.take_length]

theorem follow_seenFrom (k : Nat) (place : List String) (parts : List (List Char)) :
    (seenFrom t k).follow place parts = t.follow place parts := by
  induction parts generalizing place with
  | nil => rfl
  | cons part rest ih =>
    simp only [FileTree.follow, ih]
    rfl

theorem content_seenFrom (absolute : Path.isAbsolute path = true) (k : Nat) :
    (seenFrom t k).content? path = t.content? path := by
  have place : (seenFrom t k).place path = t.place path := by
    simp only [FileTree.place, absolute, if_true, follow_seenFrom]
  simp only [FileTree.content?, FileTree.find, place]
  rfl

theorem isFile_eq (t : FileTree) (path : String) : t.isFile path = (t.content? path).isSome := by
  simp only [FileTree.isFile, FileTree.content?]
  cases t.find path <;> rfl

/-- What is in the file that is read for a path: the nearest one of that path, seen from the current
folder and the folders around it. -/
def nearest (t : FileTree) (path : String) : Option ByteArray :=
  (List.range (t.here.length + 1)).reverse.findSome? fun k => (seenFrom t k).content? path

theorem nearest_eq (t : FileTree) (path : String) :
    nearest t path = (t.content? path).or
      ((List.range t.here.length).reverse.findSome? fun k => (seenFrom t k).content? path) := by
  rw [nearest, List.range_succ, List.reverse_append, List.reverse_singleton, List.singleton_append,
    List.findSome?_cons, seenFrom_here]
  cases t.content? path <;> rfl

def Alone (t : FileTree) (path : String) : Prop :=
  Path.isAbsolute path = true ∨ t.isFile path = true ∨
    ∀ k < t.here.length, (seenFrom t k).isFile path = false

theorem alone_iff (t : FileTree) (path : String) :
    Alone t path ↔ nearest t path = t.content? path := by
  rw [nearest_eq]
  cases own : t.content? path with
  | some content => exact iff_of_true (.inr (.inl (by rw [isFile_eq, own]; rfl))) rfl
  | none =>
    have away : ((List.range t.here.length).reverse.findSome? fun k =>
        (seenFrom t k).content? path) = none ↔
        ∀ k < t.here.length, (seenFrom t k).isFile path = false := by
      simp [List.findSome?_eq_none_iff, isFile_eq]
    rw [Option.none_or, away, Alone, isFile_eq, own]
    constructor
    · rintro (absolute | own' | around)
      · intro k _
        rw [isFile_eq, content_seenFrom absolute, own]
        rfl
      · cases own'
      · exact around
    · exact fun around => .inr (.inr around)

end Views

section Layers

def layerIn (content : ByteArray) : Except Error Data :=
  match String.fromUTF8? content with
  | none => .error (.config .unreadable)
  | some text =>
    match (Toml.read .v10 text).bind layerOf with
    | some layer => .ok layer
    | none => .error (.config .unreadable)

theorem readFile_of_content {t : FileTree} {path : String} {content : ByteArray}
    (h : t.content? path = some content) : readFile t path = layerIn content := by
  have found : t.find path = .file content := by
    unfold FileTree.content? at h
    split at h
    · cases h
      assumption
    · cases h
  rw [readFile, FileTree.readText, found, layerIn]
  simp only
  cases String.fromUTF8? content with
  | none => rfl
  | some text => rfl

theorem projectLayer_eq (t : FileTree) (path : String) :
    projectLayer t path =
      match nearest t path with
      | some content => layerIn content
      | none => .ok (.record [] true) := by
  unfold projectLayer nearest
  simp only
  induction (List.range (t.here.length + 1)).reverse with
  | nil => rfl
  | cons k ks ih =>
    rw [List.map_cons, List.find?_cons, List.findSome?_cons, isFile_eq]
    cases own : (seenFrom t k).content? path with
    | none => exact ih
    | some content => exact readFile_of_content own

theorem projectLayers_congr {t t' : FileTree} {paths : List String}
    (h : ∀ path ∈ paths, nearest t path = nearest t' path) :
    projectLayers t paths = projectLayers t' paths := by
  induction paths with
  | nil => rfl
  | cons path rest ih =>
    have others := ih fun p hp => h p (by simp [hp])
    rw [projectLayers, projectLayers, projectLayer_eq, projectLayer_eq, h path (by simp), others]

theorem projectLayers_none {t : FileTree} {paths : List String}
    (h : ∀ path ∈ paths, nearest t path = none) :
    projectLayers t paths = .ok (paths.map fun _ => .record [] true) := by
  induction paths with
  | nil => rfl
  | cons path rest ih =>
    have others := ih fun p hp => h p (by simp [hp])
    rw [projectLayers, projectLayer_eq, h path (by simp), others]
    rfl

end Layers

section Variables

/-- A variable whose name, freed of blanks around it, starts with `RETFILTER_` in any case. -/
def isOwnVariable (v : String × String) : Bool := (dropStart (Text.trim v.1.toList)).isSome

def ownVariables (environment : List (String × String)) : List (String × String) :=
  environment.filter isOwnVariable

theorem environmentLayer_own (environment : List (String × String)) :
    environmentLayer (ownVariables environment) = environmentLayer environment := by
  have entries : ((ownVariables environment).filterMap fun v =>
      (variableKey v.1).map fun key => (key, v.2)) =
      environment.filterMap fun v => (variableKey v.1).map fun key => (key, v.2) := by
    rw [ownVariables, List.filterMap_filter]
    congr 1
    funext v
    split
    · rfl
    · rename_i other
      have foreign : dropStart (Text.trim v.1.toList) = none := by
        simpa [isOwnVariable] using other
      rw [variableKey, foreign]
      rfl
  rw [environmentLayer, environmentLayer, entries]

end Variables

def ReadsOwn (t : FileTree) (folder : String) : Prop := ∀ path ∈ projectFiles folder, Alone t path

theorem readsOwn_absolute (t : FileTree) {folder : String}
    (absolute : Path.isAbsolute folder = true) : ReadsOwn t folder := by
  intro path listed
  left
  have config : Path.IsName InputSet.configName := by decide
  have own : Path.IsName ".retfilter" := by decide
  simp only [projectFiles, List.mem_cons, List.not_mem_nil, or_false] at listed
  rcases listed with rfl | rfl
  · rw [Path.isAbsolute_join config, absolute]
  · rw [Path.isAbsolute_join config, Path.isAbsolute_join own, absolute]

theorem ofProject_congr {t t' : FileTree} {environment environment' : List (String × String)}
    {folder : String} (files : ∀ path ∈ projectFiles folder, nearest t path = nearest t' path)
    (agree : ownVariables environment = ownVariables environment') :
    ofProject t environment folder = ofProject t' environment' folder := by
  unfold ofProject withEnvironment
  rw [projectLayers_congr files, ← environmentLayer_own environment,
    ← environmentLayer_own environment', agree]

theorem ofProject_default {t : FileTree} {environment : List (String × String)} {folder : String}
    (files : ∀ path ∈ projectFiles folder, nearest t path = none)
    (bare : ownVariables environment = []) : ofProject t environment folder = .ok {} := by
  unfold ofProject withEnvironment
  rw [projectLayers_none files, ← environmentLayer_own, bare]
  rfl

/-- The configuration of a project depends on the nearest files of its two paths and on the
variables of the program, and on nothing else. The nearest files are the own ones for an absolute
folder, and for any other one unless a path without a file in the project leads to a file from a
folder around the current one. Where they are the own ones, trees with the same own files give the
same configuration or both fail, and without own files and variables it is the default
configuration. -/
theorem project_settled (t : FileTree) (environment : List (String × String)) (folder : String) :
    (ReadsOwn t folder →
      (∀ t' environment', ReadsOwn t' folder →
        (∀ path ∈ projectFiles folder, t.content? path = t'.content? path) →
        ownVariables environment = ownVariables environment' →
        ofProject t environment folder = ofProject t' environment' folder) ∧
      ((∀ path ∈ projectFiles folder, t.content? path = none) → ownVariables environment = [] →
        ofProject t environment folder = .ok {})) ∧
    (Path.isAbsolute folder = true → ReadsOwn t folder) ∧
    (ReadsOwn t folder ↔ ∀ path ∈ projectFiles folder, nearest t path = t.content? path) ∧
    ∀ t' environment', (∀ path ∈ projectFiles folder, nearest t path = nearest t' path) →
      ownVariables environment = ownVariables environment' →
      ofProject t environment folder = ofProject t' environment' folder := by
  have own : ∀ t, ReadsOwn t folder ↔
      ∀ path ∈ projectFiles folder, nearest t path = t.content? path :=
    fun t => forall₂_congr fun path _ => alone_iff t path
  refine ⟨fun alone => ⟨?_, ?_⟩, readsOwn_absolute t, own t, ?_⟩
  · intro t' environment' alone' same agree
    refine ofProject_congr (fun path listed => ?_) agree
    rw [(own t).mp alone path listed, (own t').mp alone' path listed, same path listed]
  · intro absent bare
    refine ofProject_default (fun path listed => ?_) bare
    rw [(own t).mp alone path listed, absent path listed]
  · intro t' environment' files agree
    exact ofProject_congr files agree

def neighbours (other : String) : FileTree :=
  ⟨[("project", .folder [("retfilter.toml", .file "[analysis]\njobs = 3\n".toUTF8)]),
    ("other", .folder [("retfilter.toml", .file other.toUTF8)])], ["other"]⟩

theorem neighbours_project :
    ofProject (neighbours "") [("HOME", "/"), ("Retfilter_Output__Show_Kept", "false")] "/project" =
        ofProject (neighbours "[") [("Retfilter_Output__Show_Kept", "false")] "/project" ∧
      ofProject (neighbours "") [("HOME", "/")] "/other/none" = .ok {} := by
  have absolute : ∀ other, ReadsOwn (neighbours other) "/project" ∧
      ReadsOwn (neighbours other) "/other/none" := fun other =>
    ⟨(project_settled _ [] _).2.1 (by decide), (project_settled _ [] _).2.1 (by decide)⟩
  obtain ⟨same, -⟩ := (project_settled (neighbours "") _ "/project").1 (absolute "").1
  obtain ⟨-, default⟩ := (project_settled (neighbours "") _ "/other/none").1 (absolute "").2
  exact ⟨same _ _ (absolute "[").1 (by decide +kernel) (by decide +kernel),
    default (by decide +kernel) (by decide +kernel)⟩

def within (outer : List (String × FileNode)) : FileTree := ⟨("sub", .folder []) :: outer, ["sub"]⟩

def shadowed : FileTree := within [("retfilter.toml", .file "[analysis]\njobs = 7\n".toUTF8)]

/-- A project without files takes its configuration from the folder around it. -/
theorem outer_file_read :
    (∀ path ∈ projectFiles ".", shadowed.content? path = none ∧ (within []).content? path = none) ∧
      ofProject shadowed [] "." = .ok { jobs := 7 } ∧ ofProject (within []) [] "." = .ok {} := by
  decide +kernel

end Config

end MutantSieve
