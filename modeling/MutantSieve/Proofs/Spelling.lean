import Mathlib.Data.List.Pairwise
import MutantSieve.Proofs.Collecting
import MutantSieve.Proofs.Loading
import MutantSieve.Proofs.Place

/-!
# One file under several paths

A walk only puts names behind the path of its folder, so a file is found under the spelling of the
input that leads to it. Two inputs that lead to one file give it twice just when neither of them is
spelled as the other with names behind it. Inputs that start alike and go on with names never do.
-/

set_option autoImplicit false

namespace MutantSieve

namespace FileNode

mutual

def WellNamed : FileNode → Prop
  | file _ => True
  | folder entries => AllNamed entries

def AllNamed : List (String × FileNode) → Prop
  | [] => True
  | (name, node) :: rest => Path.IsName name ∧ WellNamed node ∧ AllNamed rest

end

mutual

def decideWellNamed : (node : FileNode) → Decidable node.WellNamed
  | .file _ => isTrue trivial
  | .folder entries => decideAllNamed entries

def decideAllNamed : (entries : List (String × FileNode)) → Decidable (AllNamed entries)
  | [] => isTrue trivial
  | (_, node) :: rest =>
    have := decideWellNamed node
    have := decideAllNamed rest
    instDecidableAnd

end

theorem AllNamed.lookup {entries : List (String × FileNode)} (named : AllNamed entries)
    {name : String} {node : FileNode} (h : entries.lookup name = some node) : node.WellNamed := by
  induction entries with
  | nil => cases h
  | cons entry rest ih =>
    obtain ⟨n, first⟩ := entry
    obtain ⟨-, here, behind⟩ := named
    rw [List.lookup_cons] at h
    split at h
    · cases h
      exact here
    · exact ih behind h

theorem WellNamed.at? {node found : FileNode} (named : node.WellNamed) {place : List String}
    (h : node.at? place = some found) : found.WellNamed := by
  induction place generalizing node with
  | nil =>
    cases h
    exact named
  | cons name rest ih =>
    cases node with
    | file content => cases h
    | folder entries =>
      rw [at?_cons, Option.bind_eq_some_iff] at h
      obtain ⟨inner, there, h⟩ := h
      exact ih (named.lookup there) h

end FileNode

def FileTree.WellNamed (t : FileTree) : Prop := FileNode.AllNamed t.root

instance (t : FileTree) : Decidable t.WellNamed := FileNode.decideAllNamed t.root

theorem FileTree.WellNamed.find {t : FileTree} (named : t.WellNamed) {path : String}
    {place : List String} {entries : List (String × FileNode)}
    (h : t.find path = .folder place entries) : FileNode.AllNamed entries := by
  have whole : t.node.WellNamed := named
  obtain ⟨_, node, -, here, same⟩ := place_of_find h nofun nofun
  cases node with
  | file content => cases same
  | folder inner =>
    cases same
    exact whole.at? here

theorem FileTree.find_empty (t : FileTree) : t.find "" = .missing := rfl

namespace Walk

variable (w : Walk) {name file : String} {node : FileNode}

theorem mem_of_filesIn_cons {levels : List IgnoreLevel} {folder : String}
    {rest : List (String × FileNode)} (h : file ∈ filesIn w levels folder ((name, node) :: rest)) :
    file ∈ filesAt w levels (Path.join folder name) node ∨ file ∈ filesIn w levels folder rest := by
  have visited (ignored : Bool) (found : List String)
      (member : file ∈ if ignored then [] else found) : file ∈ found := by
    cases ignored with
    | true => cases member
    | false => exact member
  cases node with
  | file content =>
    rw [filesIn] at h
    exact (List.mem_append.mp h).imp_left (visited _ _)
  | folder entries =>
    rw [filesIn] at h
    exact (List.mem_append.mp h).imp_left (visited _ _)

mutual

/-- A walk puts names behind the path that it starts at. The recursion is that of the walk. -/
theorem filesAt_within (levels : List IgnoreLevel) (path : String) : (node : FileNode) →
    node.WellNamed → ∀ file ∈ filesAt w levels path node,
      ∃ names, (∀ name ∈ names, Path.IsName name) ∧ file = Path.within path names
  | .file _, _ => by
    intro file member
    exact ⟨[], List.forall_mem_nil _, List.mem_singleton.mp member⟩
  | .folder entries, named => filesIn_within _ path entries named

theorem filesIn_within (levels : List IgnoreLevel) (folder : String) :
    (entries : List (String × FileNode)) → FileNode.AllNamed entries →
    ∀ file ∈ filesIn w levels folder entries,
      ∃ names, (∀ name ∈ names, Path.IsName name) ∧ file = Path.within folder names
  | [], _ => List.forall_mem_nil _
  | (name, node) :: rest, ⟨isName, inner, behind⟩ => by
    intro file member
    rcases mem_of_filesIn_cons w member with here | there
    · obtain ⟨names, areNames, same⟩ := filesAt_within levels _ node inner file here
      exact ⟨name :: names, List.forall_mem_cons.mpr ⟨isName, areNames⟩, same⟩
    · exact filesIn_within levels folder rest behind file there

end

end Walk

namespace Path

/-- One of two paths is spelled as the other with names behind it. -/
def SpelledAlike (p q : String) : Prop :=
  ∃ names : List String, components q = components p ++ names.map .name ∨
    components p = components q ++ names.map .name

variable {here : List String} {r s p q : String} {behind behind' : List String}

theorem spelledAlike_of_same (hp : components p = components r ++ behind.map .name)
    (hq : components q = components s ++ behind'.map .name) (same : components p = components q) :
    SpelledAlike r s := by
  rw [hp, hq] at same
  rcases List.append_eq_append_iff.mp same with ⟨middle, longer, rest⟩ | ⟨middle, longer, rest⟩
  · obtain ⟨names, -, -, rfl, -⟩ := List.map_eq_append_iff.mp rest
    exact ⟨names, .inl longer⟩
  · obtain ⟨names, -, -, rfl, -⟩ := List.map_eq_append_iff.mp rest
    exact ⟨names, .inr longer⟩

theorem components_eq_of_longer {names : List String}
    (hp : components p = components r ++ behind.map .name)
    (hq : components q = components s ++ behind'.map .name) (meet : goal here p = goal here q)
    (longer : components s = components r ++ names.map .name) : components p = components q := by
  have further : behind = names ++ behind' := by
    rw [goal_of_names here hp, goal_of_names here hq, goal_of_names here longer,
      List.append_assoc] at meet
    exact List.append_cancel_left meet
  rw [hp, hq, longer, further, List.map_append, List.append_assoc]

theorem components_eq_of_spelledAlike (hp : components p = components r ++ behind.map .name)
    (hq : components q = components s ++ behind'.map .name) (meet : goal here p = goal here q)
    (alike : SpelledAlike r s) : components p = components q := by
  obtain ⟨names, longer | longer⟩ := alike
  · exact components_eq_of_longer hp hq meet longer
  · exact (components_eq_of_longer hq hp meet.symm longer).symm

def Anchored (anchor : List Component) (path : String) : Prop :=
  ∃ names : List String, components path = anchor ++ names.map .name

theorem spelledAlike_of_anchored {anchor : List Component} (hr : Anchored anchor r)
    (hs : Anchored anchor s) (hp : components p = components r ++ behind.map .name)
    (hq : components q = components s ++ behind'.map .name) (meet : goal here p = goal here q) :
    SpelledAlike r s := by
  obtain ⟨names, hr⟩ := hr
  obtain ⟨names', hs⟩ := hs
  apply spelledAlike_of_same hp hq
  have whole : components p = anchor ++ (names ++ behind).map .name := by
    rw [hp, hr, List.append_assoc, List.map_append]
  have whole' : components q = anchor ++ (names' ++ behind').map .name := by
    rw [hq, hs, List.append_assoc, List.map_append]
  rw [goal, goal, whole, whole', List.foldl_append, List.foldl_append, next_of_names,
    next_of_names] at meet
  rw [whole, whole', List.append_cancel_left meet]

end Path

namespace InputSet

section Reaching

variable {t : FileTree} {personal : IgnoreLevel} {exclude paths : List String} {set : InputSet}

def Reaches (t : FileTree) (personal : IgnoreLevel) (exclude : List String) (input path : String) :
    Prop :=
  (t.isFile input = true ∧ path = input) ∨ Finds t personal exclude input path

theorem Reaches.isFile {input path : String} (h : Reaches t personal exclude input path) :
    t.isFile path = true := by
  rcases h with ⟨isFile, rfl⟩ | finds
  · exact isFile
  · exact finds.isFile

theorem Reaches.spelled {input path : String} (named : t.WellNamed)
    (h : Reaches t personal exclude input path) :
    ∃ names : List String, Path.components path = Path.components input ++ names.map .name := by
  rcases h with ⟨-, rfl⟩ | finds
  · exact ⟨[], by simp⟩
  · obtain ⟨place, entries, there, -, walked⟩ := finds.yields
    have filled : input ≠ "" := by
      rintro rfl
      rw [FileTree.find_empty] at there
      cases there
    have inner : (FileNode.folder entries).WellNamed := named.find there
    obtain ⟨names, areNames, rfl⟩ := Walk.filesAt_within _ _ input _ inner path walked
    exact ⟨names, Path.components_within filled areNames⟩

theorem Contents.reached (h : Contents t personal exclude paths set) {f : String × Bool}
    (member : f ∈ set.files) : ∃ input ∈ paths, Reaches t personal exclude input f.1 := by
  obtain ⟨path, mark⟩ := f
  cases mark with
  | false =>
    obtain ⟨given, isFile⟩ := h.named path member
    exact ⟨path, given, .inl ⟨isFile, rfl⟩⟩
  | true =>
    obtain ⟨folder, given, finds⟩ := h.found path member
    exact ⟨folder, given, .inr finds⟩

theorem Contents.holds_of_reaches (h : Contents t personal exclude paths set)
    {input path : String} (given : input ∈ paths)
    (reaches : Reaches t personal exclude input path) :
    set.Holds path := by
  rw [h.holds]
  rcases reaches with ⟨isFile, rfl⟩ | finds
  · exact .inl ⟨path, given, isFile, Path.same_self path⟩
  · exact .inr ⟨input, given, path, finds, Path.same_self path⟩

end Reaching

section Counting

variable {t : FileTree} {personal : IgnoreLevel} {exclude paths : List String} {set : InputSet}

def CountsOnce (t : FileTree) (set : InputSet) : Prop :=
  set.files.Pairwise fun f g => t.place f.1 ≠ t.place g.1

theorem place_eq_iff {p q : String} (hp : t.isFile p = true) (hq : t.isFile q = true) :
    t.place p = t.place q ↔ Path.goal t.here p = Path.goal t.here q := by
  obtain ⟨-, place, -⟩ := FileTree.place_of_isFile hp
  obtain ⟨-, place', -⟩ := FileTree.place_of_isFile hq
  rw [place, place', Except.ok.injEq]

theorem place_of_same {p q : String} (hp : t.isFile p = true) (hq : t.isFile q = true)
    (same : Path.same p q = true) : t.place p = t.place q := by
  rw [place_eq_iff hp hq, Path.goal, Path.goal, Path.same_iff.mp same]

theorem countsOnce_iff (ordered : Ordered set.files) :
    CountsOnce t set ↔ ∀ f ∈ set.files, ∀ g ∈ set.files,
      t.place f.1 = t.place g.1 → Path.same f.1 g.1 = true := by
  constructor
  · intro once f hf g hg meet
    by_contra apart
    have distinct : f ≠ g := fun same => apart (by rw [same]; exact Path.same_self g.1)
    have symm : Std.Symm fun f g : String × Bool => t.place f.1 ≠ t.place g.1 :=
      ⟨fun _ _ => Ne.symm⟩
    exact List.Pairwise.forall once hf hg distinct meet
  · intro spelled
    refine List.Pairwise.imp_of_mem (fun {f g} hf hg before meet => ?_) ordered
    rw [Path.compare_eq_eq.mpr (spelled f hf g hg meet)] at before
    cases before

def Meet (t : FileTree) (personal : IgnoreLevel) (exclude : List String) (r s : String) : Prop :=
  ∃ p q, Reaches t personal exclude r p ∧ Reaches t personal exclude s q ∧ t.place p = t.place q

theorem Contents.countsOnce_iff (h : Contents t personal exclude paths set) (named : t.WellNamed) :
    CountsOnce t set ↔ ∀ r ∈ paths, ∀ s ∈ paths, Meet t personal exclude r s →
      Path.SpelledAlike r s := by
  rw [InputSet.countsOnce_iff h.ordered]
  constructor
  · rintro once r hr s hs ⟨p, q, toP, toQ, meet⟩
    obtain ⟨behind, hp⟩ := toP.spelled named
    obtain ⟨behind', hq⟩ := toQ.spelled named
    obtain ⟨f, hf, sameP⟩ := h.holds_of_reaches hr toP
    obtain ⟨g, hg, sameQ⟩ := h.holds_of_reaches hs toQ
    obtain ⟨_, _, fromF⟩ := h.reached hf
    obtain ⟨_, _, fromG⟩ := h.reached hg
    have meet' : t.place f.1 = t.place g.1 := by
      rw [place_of_same fromF.isFile toP.isFile sameP, meet,
        place_of_same fromG.isFile toQ.isFile sameQ]
    have same := Path.same_trans (Path.same_symm sameP)
      (Path.same_trans (once f hf g hg meet') sameQ)
    exact Path.spelledAlike_of_same hp hq (Path.same_iff.mp same)
  · intro alike f hf g hg meet
    obtain ⟨r, hr, toF⟩ := h.reached hf
    obtain ⟨s, hs, toG⟩ := h.reached hg
    obtain ⟨behind, hp⟩ := toF.spelled named
    obtain ⟨behind', hq⟩ := toG.spelled named
    have goals := (place_eq_iff toF.isFile toG.isFile).mp meet
    exact Path.same_iff.mpr (Path.components_eq_of_spelledAlike hp hq goals
      (alike r hr s hs ⟨f.1, g.1, toF, toG, meet⟩))

theorem Contents.countsOnce_of_anchored (h : Contents t personal exclude paths set)
    (named : t.WellNamed) {anchor : List Path.Component}
    (anchored : ∀ r ∈ paths, Path.Anchored anchor r) : CountsOnce t set := by
  rw [h.countsOnce_iff named]
  rintro r hr s hs ⟨p, q, toP, toQ, meet⟩
  obtain ⟨behind, hp⟩ := toP.spelled named
  obtain ⟨behind', hq⟩ := toQ.spelled named
  exact Path.spelledAlike_of_anchored (anchored r hr) (anchored s hs) hp hq
    ((place_eq_iff toP.isFile toQ.isFile).mp meet)

end Counting

end InputSet

namespace ClassUnit

def mutationCount (units : List ClassUnit) : Nat :=
  Summary.total (units.map fun u => u.mutations.length)

theorem mutationCount_flatMap {α : Type} (parts : List α) (units : α → List ClassUnit) :
    mutationCount (parts.flatMap units) =
      Summary.total (parts.map fun part => mutationCount (units part)) := by
  induction parts with
  | nil => rfl
  | cons part rest ih =>
    rw [List.flatMap_cons, mutationCount, List.map_append, Summary.total_append, List.map_cons,
      Summary.total_cons, ← ih]
    rfl

end ClassUnit

namespace InputSet

theorem contents_of_ofPaths {t : FileTree} {environment : List (String × String)}
    {paths exclude : List String} {set : InputSet}
    (made : ofPaths t environment paths exclude = .ok set) :
    Contents t (PersonalRules.level t environment) exclude paths set := by
  obtain ⟨compile, there⟩ := (ofPaths_ok_iff t environment paths exclude).mp ⟨set, made⟩
  obtain ⟨set', made', contents⟩ := ofPaths_ok compile there
  rw [made, Except.ok.injEq] at made'
  exact made' ▸ contents

/-- When a file is counted twice. Every file of a set is at one place in the tree, and no two are at
the same place just when all inputs that lead to one file are spelled alike. So it is where all
inputs start with the same components and go on with names. What is loaded, and what an analysis
adds up, comes from each file of the set in turn. -/
theorem files_counted_once {t : FileTree} {environment : List (String × String)}
    {paths exclude : List String} {set : InputSet} (named : t.WellNamed)
    (made : ofPaths t environment paths exclude = .ok set) :
    (∀ f ∈ set.files, ∃ place content,
      t.place f.1 = .ok place ∧ t.at? place = some (.file content)) ∧
    (CountsOnce t set ↔ ∀ r ∈ paths, ∀ s ∈ paths,
      Meet t (PersonalRules.level t environment) exclude r s → Path.SpelledAlike r s) ∧
    (∀ anchor, (∀ r ∈ paths, Path.Anchored anchor r) → CountsOnce t set) ∧
    ∀ units, ClassUnit.loadAll t set = .ok units →
      units = set.files.flatMap (fun f => ClassUnit.unitsOf t f.1) ∧
      ∀ (a : Analyzer) workers duration r, a.analyzeBy workers units duration = .ok r →
        r.summary.totalMutations =
          Summary.total (set.files.map fun f =>
            ClassUnit.mutationCount (ClassUnit.unitsOf t f.1)) := by
  have contents := contents_of_ofPaths made
  refine ⟨?_, contents.countsOnce_iff named, fun anchor => contents.countsOnce_of_anchored named,
    ?_⟩
  · intro f member
    obtain ⟨input, -, reaches⟩ := contents.reached member
    obtain ⟨content, place, there⟩ := FileTree.place_of_isFile reaches.isFile
    exact ⟨_, content, place, there⟩
  · intro units loaded
    have all := ClassUnit.loadFiles_eq_flatMap loaded
    refine ⟨all, fun a workers duration r analyzed => ?_⟩
    rw [(a.adds_of_analyzeBy _ _ _ analyzed).totalMutations, all]
    exact ClassUnit.mutationCount_flatMap set.files fun f => ClassUnit.unitsOf t f.1

theorem overlap_counted_once :
    unitTree.WellNamed ∧
      ofPaths unitTree [] ["./units", "./units//build/c.json"] [] =
        .ok ⟨[("./units/a.json", true), ("./units/b.toml", true),
          ("./units//build/c.json", false)]⟩ ∧
      CountsOnce unitTree ⟨[("./units/a.json", true), ("./units/b.toml", true),
        ("./units//build/c.json", false)]⟩ := by
  have named : unitTree.WellNamed := by decide +kernel
  have made : ofPaths unitTree [] ["./units", "./units//build/c.json"] [] =
      .ok ⟨[("./units/a.json", true), ("./units/b.toml", true),
        ("./units//build/c.json", false)]⟩ := toOption_eq_some_iff.mp (by decide +kernel)
  refine ⟨named, made, (files_counted_once named made).2.2.1 [.current] ?_⟩
  simp only [List.forall_mem_cons]
  refine ⟨⟨["units"], ?_⟩, ⟨["units", "build", "c.json"], ?_⟩, List.forall_mem_nil _⟩
  all_goals decide +kernel

def loneText : String :=
  "[\x7b\"class\":[\"A\"],\"mutations\":[\x7b\"location\":[\"A\",\"m\",\"()V\"],\"index\":0," ++
    "\"mutator\":\"M\"\x7d]\x7d]"

def loneTree : FileTree :=
  { root := [("units", .folder [("a.json", .file loneText.toUTF8)])]
    here := [] }

def totalOf (t : FileTree) (inputs : List String) : Except Error Nat := do
  let set ← ofPaths t [] inputs []
  let units ← ClassUnit.loadAll t set
  let r ← Analyzer.analyze {} units ⟨0⟩
  return r.summary.totalMutations

/-- The folder of the file, given once more with a dot in front, gives the file a second time. -/
theorem dotted_folder_counted_again :
    loneTree.WellNamed ∧
      ofPaths loneTree [] ["units", "./units"] [] =
        .ok ⟨[("./units/a.json", true), ("units/a.json", true)]⟩ ∧
      loneTree.place "./units/a.json" = .ok ["units", "a.json"] ∧
      loneTree.place "units/a.json" = .ok ["units", "a.json"] ∧
      ¬ CountsOnce loneTree ⟨[("./units/a.json", true), ("units/a.json", true)]⟩ ∧
      totalOf loneTree ["units"] = .ok 1 ∧ totalOf loneTree ["units", "./units"] = .ok 2 := by
  have dotted : loneTree.place "./units/a.json" = .ok ["units", "a.json"] :=
    toOption_eq_some_iff.mp (by decide +kernel)
  have plain : loneTree.place "units/a.json" = .ok ["units", "a.json"] :=
    toOption_eq_some_iff.mp (by decide +kernel)
  refine ⟨by decide +kernel, toOption_eq_some_iff.mp (by decide +kernel), dotted, plain, ?_,
    toOption_eq_some_iff.mp (by decide +kernel), toOption_eq_some_iff.mp (by decide +kernel)⟩
  intro once
  have apart := (List.pairwise_cons.mp once).1 ("units/a.json", true) List.mem_cons_self
  exact apart (dotted.trans plain.symm)

end InputSet

end MutantSieve
