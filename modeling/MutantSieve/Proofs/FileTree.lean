import MutantSieve.Files.InputSet

/-!
# Writing a file

A file is written at a place that the path leads to. Everything at other places stays as it is, and
what is on the way are the same folders as before, but for the entries that lead to the file. A path
into a folder leads to a place in just the folder that the path of that folder leads to.
-/

set_option autoImplicit false

namespace MutantSieve

namespace FileNode

theorem lookup_putEntry (name : String) (node : FileNode) (entries : List (String × FileNode))
    (n : String) :
    (putEntry name node entries).lookup n = if n = name then some node else entries.lookup n := by
  induction entries with
  | nil =>
    by_cases same : n = name
    · simp [putEntry, same]
    · simp [putEntry, List.lookup_cons, same, beq_false_of_ne same]
  | cons entry rest ih =>
    obtain ⟨m, old⟩ := entry
    by_cases here : m = name
    · subst here
      by_cases same : n = m
      · simp [putEntry, same]
      · simp [putEntry, List.lookup_cons, same, beq_false_of_ne same]
    · by_cases front : n = m
      · subst front
        simp [putEntry, here]
      · simp [putEntry, List.lookup_cons, here, beq_false_of_ne front, ih]

theorem at?_cons (name : String) (place : List String) (entries : List (String × FileNode)) :
    at? (name :: place) (folder entries) = (entries.lookup name).bind (at? place) := by
  rw [at?]
  cases entries.lookup name <;> rfl

structure Gains (content : ByteArray) (place : List String) (before : Option FileNode)
    (after : FileNode) : Prop where
  there : at? place after = some (.file content)
  elsewhere : ∀ other, ¬ other <+: place → at? other after = before.bind (at? other)
  around : ∀ other, other <+: place → other ≠ place →
    (∃ old, before.bind (at? other) = some (.folder old)) ∧
      ∃ new, at? other after = some (.folder new)

variable {content : ByteArray}

theorem Gains.here {before : Option FileNode} (free : ∀ entries, before ≠ some (.folder entries)) :
    Gains content [] before (.file content) where
  there := rfl
  elsewhere := by
    intro other apart
    cases other with
    | nil => exact absurd List.nil_prefix apart
    | cons n rest =>
      cases before with
      | none => rfl
      | some node =>
        cases node with
        | file old => rfl
        | folder entries => exact absurd rfl (free entries)
  around := by
    intro other inside short
    exact absurd (List.prefix_nil.mp inside) short

theorem Gains.within {place : List String} {name : String} {entries : List (String × FileNode)}
    {after : FileNode} (gains : Gains content place (entries.lookup name) after) :
    Gains content (name :: place) (some (.folder entries))
      (.folder (putEntry name after entries)) where
  there := by
    rw [at?_cons, lookup_putEntry, if_pos rfl, Option.bind_some, gains.there]
  elsewhere := by
    intro other apart
    cases other with
    | nil => exact absurd List.nil_prefix apart
    | cons n rest =>
      rw [at?_cons, lookup_putEntry, Option.bind_some, at?_cons]
      by_cases same : n = name
      · subst same
        rw [if_pos rfl, Option.bind_some]
        exact gains.elsewhere rest fun inside => apart (List.cons_prefix_cons.mpr ⟨rfl, inside⟩)
      · rw [if_neg same]
  around := by
    intro other inside short
    cases other with
    | nil => exact ⟨⟨entries, rfl⟩, _, rfl⟩
    | cons n rest =>
      obtain ⟨same, inner⟩ := List.cons_prefix_cons.mp inside
      subst same
      rw [at?_cons, lookup_putEntry, if_pos rfl, Option.bind_some, Option.bind_some, at?_cons]
      exact gains.around rest inner fun whole => short (congrArg _ whole)

/-- The induction follows the place from the root downwards. -/
theorem gains_of_put {place : List String} {before after : FileNode}
    (h : put content place before = some after) : Gains content place (some before) after := by
  induction place generalizing before after with
  | nil =>
    cases before with
    | folder entries => cases h
    | file old =>
      cases h
      exact Gains.here fun _ same => nomatch same
  | cons name rest ih =>
    cases before with
    | file old => cases rest <;> cases h
    | folder entries =>
      cases rest with
      | nil =>
        rw [put] at h
        split at h
        · cases h
        · next free =>
          cases h
          exact Gains.within (Gains.here free)
      | cons next rest =>
        simp only [put] at h
        cases found : entries.lookup name with
        | none =>
          rw [found] at h
          cases h
        | some node =>
          rw [found] at h
          obtain ⟨after', inner, rfl⟩ := Option.map_eq_some_iff.mp h
          apply Gains.within
          rw [found]
          exact ih inner

end FileNode

namespace FileTree

/-- One tree is another one with a file at a place, and the same elsewhere: on the way to the file
are folders as before. -/
structure Gains (content : ByteArray) (place : List String) (before after : FileTree) : Prop where
  there : after.at? place = some (.file content)
  elsewhere : ∀ other, ¬ other <+: place → after.at? other = before.at? other
  around : ∀ other, other <+: place → other ≠ place →
    (∃ old, before.at? other = some (.folder old)) ∧ ∃ new, after.at? other = some (.folder new)
  here : after.here = before.here

theorem gains_of_write {t t' : FileTree} {path text : String} (h : t.write path text = .ok t') :
    ∃ place, t.place path = .ok place ∧ t.Gains text.toUTF8 place t' := by
  rw [write] at h
  cases followed : t.place path with
  | error found =>
    rw [followed] at h
    cases h
  | ok place =>
    rw [followed] at h
    dsimp only at h
    split at h
    · next root put =>
      cases h
      have gains := FileNode.gains_of_put put
      exact ⟨place, rfl, gains.there, gains.elsewhere, gains.around, rfl⟩
    · cases h

theorem write_error {t : FileTree} {path text : String} {e : Error}
    (h : t.write path text = .error e) : e = .io := by
  rw [write] at h
  split at h
  · exact (Except.error.inj h).symm
  split at h
  · cases h
  · exact (Except.error.inj h).symm

section Follow

variable {t : FileTree}

theorem follow_append (place : List String) (parts more : List (List Char)) :
    t.follow place (parts ++ more) =
      (t.follow place parts).bind fun reached => t.follow reached more := by
  induction parts generalizing place with
  | nil => rfl
  | cons part rest ih =>
    rw [List.cons_append, follow, follow]
    cases t.at? place with
    | none => rfl
    | some node =>
      cases node with
      | file content => rfl
      | folder entries =>
        dsimp only
        split
        · rfl
        split
        · exact ih place
        split
        · exact ih place.dropLast
        · exact ih _

theorem follow_name {place reached : List String} {name : List Char}
    (h : t.follow place [name] = .ok reached) (here : name ≠ ['.']) (up : name ≠ ['.', '.']) :
    (∃ entries, t.at? place = some (.folder entries)) ∧
      reached = place ++ [String.ofList name] := by
  rw [follow] at h
  cases found : t.at? place with
  | none =>
    rw [found] at h
    cases h
  | some node =>
    rw [found] at h
    cases node with
    | file content => cases h
    | folder entries =>
      dsimp only at h
      rw [if_neg here, if_neg up] at h
      split at h
      · cases h
      · cases h
        exact ⟨⟨entries, rfl⟩, rfl⟩

theorem follow_dot {place : List String} {entries : List (String × FileNode)}
    (folder : t.at? place = some (.folder entries)) : t.follow place [['.']] = .ok place := by
  rw [follow, folder]
  rfl

end Follow

end FileTree

namespace Path

theorem splitSlash_ne_nil (s : List Char) : splitSlash s ≠ [] := by
  induction s with
  | nil => simp [splitSlash]
  | cons c s ih =>
    rw [splitSlash]
    split
    · simp
    · split <;> simp

theorem splitSlash_append (xs ys : List Char) :
    splitSlash (xs ++ '/' :: ys) = splitSlash xs ++ splitSlash ys := by
  induction xs with
  | nil => simp [splitSlash]
  | cons c xs ih =>
    by_cases slash : c = '/'
    · simp [splitSlash, slash, ih]
    · rw [List.cons_append, splitSlash, if_neg slash, splitSlash, if_neg slash, ih]
      cases first : splitSlash xs with
      | nil => exact absurd first (splitSlash_ne_nil xs)
      | cons p ps => rfl

theorem splitSlash_of_whole {name : List Char} (whole : '/' ∉ name) : splitSlash name = [name] := by
  induction name with
  | nil => rfl
  | cons c name ih =>
    rw [List.mem_cons, not_or] at whole
    rw [splitSlash, if_neg fun same => whole.1 same.symm, ih whole.2]

structure IsName (name : String) : Prop where
  visible : name.toList ≠ []
  whole : '/' ∉ name.toList
  not_here : name.toList ≠ ['.']
  not_up : name.toList ≠ ['.', '.']

instance (name : String) : Decidable (IsName name) :=
  decidable_of_decidable_of_iff
    (p := name.toList ≠ [] ∧ '/' ∉ name.toList ∧ name.toList ≠ ['.'] ∧ name.toList ≠ ['.', '.'])
    ⟨fun ⟨visible, whole, here, up⟩ => ⟨visible, whole, here, up⟩,
      fun h => ⟨h.visible, h.whole, h.not_here, h.not_up⟩⟩

theorem IsName.relative {name : String} (h : IsName name) : isAbsolute name = false := by
  rw [isAbsolute, beq_eq_false_iff_ne]
  intro slash
  exact h.whole (List.mem_of_head? slash)

theorem join_cases {folder name : String} (named : folder ≠ "") (h : IsName name) :
    (∃ front, folder.toList = front ++ ['/'] ∧ join folder name = folder ++ name) ∨
      join folder name = folder ++ ("/" ++ name) := by
  have filled : folder.isEmpty = false := by simpa using named
  rw [join, h.relative, filled, Bool.or_false, if_neg Bool.false_ne_true]
  by_cases slash : folder.toList.getLast? = some '/'
  · rw [if_pos slash]
    obtain ⟨front, split⟩ := List.getLast?_eq_some_iff.mp slash
    exact .inl ⟨front, split, rfl⟩
  · rw [if_neg slash, String.append_assoc]
    exact .inr rfl

theorem splitSlash_join {folder name : String} (named : folder ≠ "") (h : IsName name) :
    (∃ front, splitSlash folder.toList = splitSlash front ++ [[]] ∧
        splitSlash (join folder name).toList = splitSlash front ++ [name.toList]) ∨
      splitSlash (join folder name).toList = splitSlash folder.toList ++ [name.toList] := by
  have last := splitSlash_of_whole h.whole
  rcases join_cases named h with ⟨front, split, joined⟩ | joined
  · refine .inl ⟨front, ?_, ?_⟩
    · rw [split, splitSlash_append]
      rfl
    · rw [joined, String.toList_append, split, List.append_assoc, List.singleton_append,
        splitSlash_append, last]
  · refine .inr ?_
    rw [joined, String.toList_append, String.toList_append]
    show splitSlash (folder.toList ++ '/' :: name.toList) = _
    rw [splitSlash_append, last]

end Path

namespace FileTree

def parts (path : String) : List (List Char) :=
  (Path.splitSlash path.toList).filter fun p => !p.isEmpty

theorem steps_cases (path : String) :
    steps path = parts path ∨ steps path = parts path ++ [['.']] := by
  rw [steps, parts]
  split
  · exact .inr rfl
  · exact .inl rfl

theorem steps_of_split {path : String} {front : List (List Char)} {name : List Char}
    (split : Path.splitSlash path.toList = front ++ [name]) (visible : name ≠ []) :
    steps path = (front.filter fun p => !p.isEmpty) ++ [name] := by
  simp [steps, split, visible]

variable {folder name : String}

theorem steps_join (named : folder ≠ "") (h : Path.IsName name) :
    steps (Path.join folder name) = parts folder ++ [name.toList] := by
  rcases Path.splitSlash_join named h with ⟨front, whole, last⟩ | last
  · rw [steps_of_split last h.visible, parts, whole, List.filter_append]
    simp
  · rw [steps_of_split last h.visible, parts]

theorem place_of_prefix {t : FileTree} {rest : String} {reached : List String}
    (named : folder ≠ "") (followed : t.place (folder ++ rest) = .ok reached) :
    ∃ start, t.place folder = t.follow start (steps folder) ∧
      t.follow start (steps (folder ++ rest)) = .ok reached := by
  rw [place] at followed
  split at followed
  · cases followed
  split at followed
  · cases followed
  split at followed
  · cases followed
  next _ short clean =>
    have nonempty : folder.toList ≠ [] := by simpa using named
    have absolute : Path.isAbsolute (folder ++ rest) = Path.isAbsolute folder := by
      rw [Path.isAbsolute, String.toList_append, List.head?_append, Path.isAbsolute]
      cases first : folder.toList with
      | nil => exact absurd first nonempty
      | cons c _ => rfl
    rw [absolute] at followed
    refine ⟨_, ?_, followed⟩
    rw [String.utf8ByteSize_append] at short
    have part : ¬ folder.toList.contains '\x00' = true := by
      rw [String.toList_append, List.contains_append, Bool.or_eq_true] at clean
      exact fun there => clean (.inl there)
    rw [place, if_neg (by simpa using named), if_neg (by omega), if_neg part]

theorem place_of_join {t : FileTree} {reached : List String} (named : folder ≠ "")
    (h : Path.IsName name) (followed : t.place (Path.join folder name) = .ok reached) :
    ∃ place entries, t.find folder = .folder place entries ∧ reached = place ++ [name] := by
  have front : ∃ rest, Path.join folder name = folder ++ rest := by
    rcases Path.join_cases named h with ⟨-, -, joined⟩ | joined
    · exact ⟨_, joined⟩
    · exact ⟨_, joined⟩
  obtain ⟨rest, joined⟩ := front
  rw [joined] at followed
  obtain ⟨start, prior, onward⟩ := place_of_prefix named followed
  rw [← joined, steps_join named h, follow_append] at onward
  cases reachedParts : t.follow start (parts folder) with
  | error found =>
    rw [reachedParts] at onward
    cases onward
  | ok place =>
    rw [reachedParts] at onward
    obtain ⟨⟨entries, isFolder⟩, behind⟩ := follow_name onward h.not_here h.not_up
    rw [String.ofList_toList] at behind
    have arrived : t.place folder = .ok place := by
      rw [prior]
      rcases steps_cases folder with bare | dotted
      · rw [bare, reachedParts]
      · rw [dotted, follow_append, reachedParts]
        exact follow_dot isFolder
    exact ⟨place, entries, by rw [find, arrived]; simp only [isFolder], behind⟩

end FileTree

end MutantSieve
