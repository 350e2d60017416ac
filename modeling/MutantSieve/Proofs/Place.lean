import MutantSieve.Proofs.FileTree
import MutantSieve.Proofs.Path

/-!
# Where paths lead

A file tree has no links, so the place that a path leads to can be read off from its components: a
name goes into a folder and two dots go back. A name that is put behind a path goes one step further
from the same place, whatever the spelling of the path.
-/

set_option autoImplicit false

namespace MutantSieve

namespace Path

def Component.next (place : List String) : Component → List String
  | root => []
  | current => place
  | parent => place.dropLast
  | name text => place ++ [text]

def goal (here : List String) (path : String) : List String :=
  (components path).foldl Component.next here

def nextPart (place : List String) (part : List Char) : List String :=
  if part = ['.'] then place
  else if part = ['.', '.'] then place.dropLast
  else place ++ [String.ofList part]

/-- The components that the first part of a path stands for. It is the root if it is empty and
other parts follow. -/
def leading (first : List Char) (rest : List (List Char)) : List Component :=
  if first = [] then (if rest = [] then [] else [.root])
  else if first = ['.'] then [.current]
  else (laterComponent first).toList

theorem components_of_split {path : String} {first : List Char} {rest : List (List Char)}
    (split : splitSlash path.toList = first :: rest) :
    components path = leading first rest ++ rest.filterMap laterComponent := by
  rw [components, split]
  split
  case h_1 none => cases none
  case h_2 same =>
    obtain ⟨rfl, rfl⟩ := List.cons.inj same
    cases rest <;> simp [leading]
  case h_3 same =>
    obtain ⟨rfl, rfl⟩ := List.cons.inj same
    simp [leading]
  case h_4 notRoot notCurrent =>
    have filled : first ≠ [] := fun empty => notRoot rest (by rw [empty])
    have noDot : first ≠ ['.'] := fun dot => notCurrent rest (by rw [dot])
    rw [leading, if_neg filled, if_neg noDot, List.filterMap_cons]
    cases laterComponent first <;> rfl

theorem isAbsolute_of_split {path : String} {first : List Char} {rest : List (List Char)}
    (split : splitSlash path.toList = first :: rest) :
    isAbsolute path = true ↔ first = [] ∧ rest ≠ [] := by
  rw [isAbsolute]
  cases text : path.toList with
  | nil =>
    rw [text, splitSlash] at split
    obtain ⟨rfl, rfl⟩ := List.cons.inj split
    simp
  | cons c r =>
    rw [text, splitSlash] at split
    by_cases slash : c = '/'
    · rw [if_pos slash] at split
      obtain ⟨rfl, rfl⟩ := List.cons.inj split
      simp [slash, splitSlash_ne_nil]
    · rw [if_neg slash] at split
      have filled : first ≠ [] := by
        cases parts : splitSlash r <;> rw [parts] at split <;>
          exact (List.cons.inj split).1 ▸ List.cons_ne_nil _ _
      simp [slash, filled]

theorem next_of_laterComponent (place : List String) (part : List Char) :
    (laterComponent part).toList.foldl Component.next place =
      if part = [] then place else nextPart place part := by
  rw [laterComponent, nextPart]
  by_cases empty : part = []
  · simp [empty]
  by_cases dot : part = ['.']
  · simp [dot]
  by_cases up : part = ['.', '.']
  · simp [up, Component.next]
  · simp [empty, dot, up, Component.next]

theorem next_of_laterComponents (place : List String) (parts : List (List Char)) :
    (parts.filterMap laterComponent).foldl Component.next place =
      (parts.filter fun p => !p.isEmpty).foldl nextPart place := by
  induction parts generalizing place with
  | nil => rfl
  | cons part rest ih =>
    have step := next_of_laterComponent place part
    have front : (part :: rest).filterMap laterComponent =
        (laterComponent part).toList ++ rest.filterMap laterComponent := by
      rw [List.filterMap_cons]
      cases laterComponent part <;> rfl
    rw [front, List.foldl_append, step, ih]
    cases part with
    | nil => simp
    | cons c r => simp

theorem goal_eq_parts (here : List String) (path : String) :
    goal here path =
      (FileTree.parts path).foldl nextPart (if isAbsolute path then [] else here) := by
  rw [goal, FileTree.parts]
  cases split : splitSlash path.toList with
  | nil => exact absurd split (splitSlash_ne_nil _)
  | cons first rest =>
    have absolute := isAbsolute_of_split split
    rw [components_of_split split, List.foldl_append, next_of_laterComponents]
    by_cases empty : first = []
    · subst empty
      by_cases alone : rest = []
      · simp [alone, leading, absolute]
      · simp [alone, leading, absolute, Component.next]
    · have relative : isAbsolute path = false := by simp [← Bool.not_eq_true, absolute, empty]
      have front : (leading first rest).foldl Component.next here = nextPart here first := by
        rw [leading, if_neg empty]
        by_cases dot : first = ['.']
        · simp [dot, nextPart, Component.next]
        · rw [if_neg dot, next_of_laterComponent, if_neg empty]
      rw [front, relative, List.filter_cons_of_pos (by simpa using empty)]
      rfl

end Path

namespace FileTree

variable {t : FileTree} {path : String}

/-- Whether or not it can be followed, nothing but the parts of a path decides where it leads. -/
theorem follow_eq_parts {place reached : List String} {parts : List (List Char)}
    (followed : t.follow place parts = .ok reached) :
    reached = parts.foldl Path.nextPart place := by
  induction parts generalizing place with
  | nil => exact (Except.ok.inj followed).symm
  | cons part rest ih =>
    rw [follow] at followed
    split at followed
    · cases followed
    · cases followed
    split at followed
    · cases followed
    rw [List.foldl_cons, Path.nextPart]
    split at followed
    case isTrue dot => rw [if_pos dot, ih followed]
    case isFalse noDot =>
      rw [if_neg noDot]
      split at followed
      case isTrue up => rw [if_pos up, ih followed]
      case isFalse noUp => rw [if_neg noUp, ih followed]

theorem follow_error {place : List String} {parts : List (List Char)} {found : Found}
    (h : t.follow place parts = .error found) : found = .missing ∨ found = .barred := by
  induction parts generalizing place with
  | nil => cases h
  | cons part rest ih =>
    rw [follow] at h
    split at h
    · exact .inl (Except.error.inj h).symm
    · exact .inr (Except.error.inj h).symm
    split at h
    · exact .inr (Except.error.inj h).symm
    split at h
    · exact ih h
    split at h
    · exact ih h
    · exact ih h

theorem place_error {found : Found} (h : t.place path = .error found) :
    found = .missing ∨ found = .barred := by
  rw [FileTree.place] at h
  split at h
  · exact .inl (Except.error.inj h).symm
  split at h
  · exact .inr (Except.error.inj h).symm
  split at h
  · exact .inr (Except.error.inj h).symm
  · exact follow_error h

theorem place_eq_goal {place : List String} (h : t.place path = .ok place) :
    place = Path.goal t.here path := by
  rw [FileTree.place] at h
  split at h
  · cases h
  split at h
  · cases h
  split at h
  · cases h
  rw [follow_eq_parts h, Path.goal_eq_parts]
  rcases steps_cases path with bare | dotted
  · rw [bare]
  · rw [dotted, List.foldl_append]
    rfl

theorem place_of_find {found : Found} (h : t.find path = found) (there : found ≠ .missing)
    (free : found ≠ .barred) :
    ∃ place node, t.place path = .ok place ∧ t.at? place = some node ∧
      found = match node with
        | .file content => .file content
        | .folder entries => .folder place entries := by
  rw [find] at h
  cases followed : t.place path with
  | error other =>
    rw [followed] at h
    rcases place_error followed with rfl | rfl
    · exact absurd h.symm there
    · exact absurd h.symm free
  | ok place =>
    rw [followed] at h
    dsimp only at h
    split at h
    case h_1 => exact absurd h.symm there
    case h_2 content here => exact ⟨place, _, rfl, here, h.symm⟩
    case h_3 entries here => exact ⟨place, _, rfl, here, h.symm⟩

theorem place_of_isFile (h : t.isFile path = true) :
    ∃ content, t.place path = .ok (Path.goal t.here path) ∧
      t.at? (Path.goal t.here path) = some (.file content) := by
  rw [isFile] at h
  split at h
  case h_2 => cases h
  case h_1 content found =>
    obtain ⟨place, node, followed, here, same⟩ := place_of_find found nofun nofun
    rw [← place_eq_goal followed]
    cases node with
    | folder entries => cases same
    | file inner => exact ⟨inner, followed, here⟩

end FileTree

namespace Path

variable {folder name : String}

theorem laterComponent_name (h : IsName name) : laterComponent name.toList = some (.name name) := by
  rw [laterComponent, if_neg (not_or.mpr ⟨h.visible, h.not_here⟩), if_neg h.not_up,
    String.ofList_toList]

theorem splitSlash_eq_blank {s : List Char} (h : splitSlash s = [[]]) : s = [] := by
  cases s with
  | nil => rfl
  | cons c r =>
    rw [splitSlash] at h
    split at h
    · exact absurd (List.cons.inj h).2 (splitSlash_ne_nil r)
    · split at h <;> cases h

theorem leading_of_ne_nil (first : List Char) {rest rest' : List (List Char)} (filled : rest ≠ [])
    (filled' : rest' ≠ []) : leading first rest = leading first rest' := by
  rw [leading, leading, if_neg filled, if_neg filled']

theorem components_join (named : folder ≠ "") (h : IsName name) :
    components (join folder name) = components folder ++ [.name name] := by
  rcases splitSlash_join named h with ⟨front, whole, last⟩ | last
  · cases split : splitSlash front with
    | nil => exact absurd split (splitSlash_ne_nil front)
    | cons first rest =>
      rw [split, List.cons_append] at whole last
      rw [components_of_split whole, components_of_split last,
        leading_of_ne_nil first (by simp) (by simp : rest ++ [[]] ≠ []), List.filterMap_append,
        List.filterMap_append, List.filterMap_cons_some (laterComponent_name h)]
      simp [laterComponent]
  · cases split : splitSlash folder.toList with
    | nil => exact absurd split (splitSlash_ne_nil _)
    | cons first rest =>
      rw [split, List.cons_append] at last
      have same : leading first (rest ++ [name.toList]) = leading first rest := by
        by_cases alone : rest = []
        · have filled : first ≠ [] := by
            rintro rfl
            rw [alone] at split
            exact named (String.toList_eq_nil_iff.mp (splitSlash_eq_blank split))
          rw [leading, leading, if_neg filled, if_neg filled]
        · exact leading_of_ne_nil first (by simp) alone
      rw [components_of_split split, components_of_split last, same, List.filterMap_append,
        List.filterMap_cons_some (laterComponent_name h), List.filterMap_nil, List.append_assoc]

theorem join_ne_empty (named : folder ≠ "") (h : IsName name) : join folder name ≠ "" := by
  rcases join_cases named h with ⟨-, -, joined⟩ | joined <;> rw [joined] <;>
    simp [String.append_eq_empty_iff, named]

def within (folder : String) (names : List String) : String := names.foldl join folder

theorem components_within (named : folder ≠ "") {names : List String}
    (h : ∀ name ∈ names, IsName name) :
    components (within folder names) = components folder ++ names.map .name := by
  induction names generalizing folder with
  | nil => simp [within]
  | cons name rest ih =>
    obtain ⟨isName, others⟩ := List.forall_mem_cons.mp h
    have filled := join_ne_empty named isName
    rw [within, List.foldl_cons]
    exact (ih filled others).trans (by rw [components_join named isName]; simp)

theorem next_of_names (place names : List String) :
    (names.map Component.name).foldl Component.next place = place ++ names := by
  induction names generalizing place with
  | nil => simp
  | cons name rest ih => simp [Component.next, ih]

theorem goal_of_names (here : List String) {path path' : String} {names : List String}
    (h : components path' = components path ++ names.map .name) :
    goal here path' = goal here path ++ names := by
  rw [goal, h, List.foldl_append, next_of_names, goal]

end Path

end MutantSieve
