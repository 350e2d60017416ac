import MutantSieve.Files.InputSet
import MutantSieve.Proofs.Path

/-!
# Collecting unit files

The files of an input set stand in the order of their paths and each once, because the insertion of
a path keeps both. Those marked as discovered are files of the tree whose names have an extension of
unit files. One path therefore cuts the files into those before it and those behind it.
-/

set_option autoImplicit false

namespace MutantSieve.InputSet

def Ordered (files : List (String × Bool)) : Prop :=
  files.Pairwise fun f g => Path.compare f.1 g.1 = .lt

theorem mem_of_insert {file f : String × Bool} {files : List (String × Bool)}
    (h : f ∈ insert file files) : f = file ∨ f ∈ files := by
  induction files with
  | nil => exact .inl (by simpa [insert] using h)
  | cons g rest ih =>
    rw [insert] at h
    split at h
    · exact List.mem_cons.mp h
    · exact .inr h
    · rcases List.mem_cons.mp h with rfl | h
      · exact .inr List.mem_cons_self
      · exact (ih h).imp_right (List.mem_cons_of_mem g)

theorem mem_of_insertAll {f : String × Bool} {files set : List (String × Bool)}
    (h : f ∈ insertAll files set) : f ∈ files ∨ f ∈ set := by
  induction files generalizing set with
  | nil => exact .inr h
  | cons file rest ih =>
    rcases ih h with later | before
    · exact .inl (List.mem_cons_of_mem file later)
    · refine (mem_of_insert before).imp_left ?_
      rintro rfl
      exact List.mem_cons_self

theorem ordered_nil : Ordered [] := List.Pairwise.nil

theorem Ordered.insert {files : List (String × Bool)} (ordered : Ordered files)
    (file : String × Bool) : Ordered (insert file files) := by
  induction files with
  | nil => exact List.pairwise_singleton _ _
  | cons g rest ih =>
    have behind := List.pairwise_cons.mp ordered
    rw [InputSet.insert]
    split
    case h_1 before =>
      refine List.pairwise_cons.mpr ⟨fun f member => ?_, ordered⟩
      rcases List.mem_cons.mp member with rfl | member
      · exact before
      · exact Std.TransCmp.lt_trans before (behind.1 f member)
    case h_2 => exact ordered
    case h_3 after =>
      refine List.pairwise_cons.mpr ⟨fun f member => ?_, ih behind.2⟩
      rcases mem_of_insert member with rfl | member
      · exact Std.OrientedCmp.lt_of_gt after
      · exact behind.1 f member

theorem Ordered.insertAll {set : List (String × Bool)} (ordered : Ordered set)
    (files : List (String × Bool)) : Ordered (insertAll files set) := by
  induction files generalizing set with
  | nil => exact ordered
  | cons file rest ih => exact ih (ordered.insert file)

theorem Ordered.eq_of_same {files : List (String × Bool)} (ordered : Ordered files)
    {f g : String × Bool} (hf : f ∈ files) (hg : g ∈ files) (same : Path.same f.1 g.1 = true) :
    f = g := by
  have equal : Path.compare f.1 g.1 = .eq := Path.compare_eq_eq.mpr same
  induction files with
  | nil => cases hf
  | cons h rest ih =>
    obtain ⟨front, behind⟩ := List.pairwise_cons.mp ordered
    rcases List.mem_cons.mp hf with first | later <;>
      rcases List.mem_cons.mp hg with first' | later'
    · rw [first, first']
    · rw [first, front g later'] at equal
      cases equal
    · rw [first', Std.OrientedCmp.gt_of_lt (front f later)] at equal
      cases equal
    · exact ih behind later later'

section Inserting

variable {file f : String × Bool} {files set : List (String × Bool)}

theorem mem_insert_of_mem (h : f ∈ files) : f ∈ insert file files := by
  induction files with
  | nil => cases h
  | cons g rest ih =>
    rw [insert]
    split
    · exact List.mem_cons_of_mem file h
    · exact h
    · rcases List.mem_cons.mp h with rfl | h
      · exact List.mem_cons_self
      · exact List.mem_cons_of_mem g (ih h)

/-- The insertion of a path leaves it in the list, perhaps in a spelling that was there. -/
theorem exists_same_insert (file : String × Bool) (files : List (String × Bool)) :
    ∃ f ∈ insert file files, Path.same f.1 file.1 = true := by
  induction files with
  | nil => exact ⟨file, List.mem_cons_self, Path.same_self file.1⟩
  | cons g rest ih =>
    rw [insert]
    split
    case h_1 => exact ⟨file, List.mem_cons_self, Path.same_self file.1⟩
    case h_2 equal => exact ⟨g, List.mem_cons_self, Path.same_symm (Path.compare_eq_eq.mp equal)⟩
    case h_3 =>
      obtain ⟨f, hf, same⟩ := ih
      exact ⟨f, List.mem_cons_of_mem g hf, same⟩

theorem mem_insertAll_of_mem (h : f ∈ set) : f ∈ insertAll files set := by
  induction files generalizing set with
  | nil => exact h
  | cons file rest ih => exact ih (mem_insert_of_mem h)

theorem exists_same_insertAll (h : f ∈ files) :
    ∃ g ∈ insertAll files set, Path.same g.1 f.1 = true := by
  induction files generalizing set with
  | nil => cases h
  | cons file rest ih =>
    rcases List.mem_cons.mp h with rfl | h
    · obtain ⟨g, hg, same⟩ := exists_same_insert f set
      have stays : g ∈ insertAll rest (insert f set) := mem_insertAll_of_mem hg
      exact ⟨g, stays, same⟩
    · exact ih h

end Inserting

structure IsCandidate (t : FileTree) (path : String) : Prop where
  isFile : t.isFile path = true
  format : (Path.unitFormat? path).isSome = true

theorem discover_candidates {t : FileTree} {personal : IgnoreLevel}
    {exclude : List (List Glob.Part)} {folder path : String} {place : List String}
    {entries : List (String × FileNode)}
    (h : path ∈ discover t personal exclude folder place entries) : IsCandidate t path := by
  rw [discover] at h
  split at h
  · cases h
  · have passed := (List.mem_filter.mp h).2
    simp only [accepts, Bool.and_eq_true] at passed
    exact ⟨passed.1, passed.2.1.1.1⟩

theorem gather_candidates {t : FileTree} {personal : IgnoreLevel}
    {exclude : List (List Glob.Part)} {paths named found : List String}
    (h : gather t personal exclude paths = .ok (named, found)) :
    ∀ path ∈ found, IsCandidate t path := by
  induction paths generalizing named found with
  | nil => cases h; exact fun _ member => nomatch member
  | cons path rest ih =>
    rw [gather] at h
    cases place : t.find path <;> rw [place] at h <;> dsimp only at h
    case folder =>
      cases later : gather t personal exclude rest <;> rw [later] at h <;> cases h
      intro p member
      rcases List.mem_append.mp member with here | there
      · exact discover_candidates here
      · exact ih later p there
    case file =>
      cases later : gather t personal exclude rest <;> rw [later] at h <;> cases h
      exact ih later
    case missing | barred => cases h

structure Collected (t : FileTree) (set : InputSet) : Prop where
  ordered : Ordered set.files
  discovered : ∀ path, (path, true) ∈ set.files → IsCandidate t path

theorem ofPaths_collected {t : FileTree} {environment : List (String × String)}
    {paths exclude : List String} {set : InputSet}
    (h : ofPaths t environment paths exclude = .ok set) : Collected t set := by
  rw [ofPaths] at h
  split at h
  · cases h
  cases gathered : gather t (PersonalRules.level t environment) _ paths <;>
    rw [gathered] at h <;> cases h
  refine ⟨(ordered_nil.insertAll _).insertAll _, fun path member => ?_⟩
  rcases mem_of_insertAll member with found | named
  · obtain ⟨p, found, same⟩ := List.mem_map.mp found
    cases same
    exact gather_candidates gathered path found
  · rcases mem_of_insertAll named with named | none
    · obtain ⟨p, -, same⟩ := List.mem_map.mp named
      cases same
    · cases none

def without (set : InputSet) (path : String) : InputSet :=
  ⟨set.files.filter fun f => !Path.same f.1 path⟩

def before (set : InputSet) (path : String) : List (String × Bool) :=
  set.files.filter fun f => Path.compare f.1 path = .lt

theorem Ordered.cut {set : InputSet} (ordered : Ordered set.files) {path : String}
    {discovered : Bool} (member : (path, discovered) ∈ set.files) :
    ∃ behind, set.files = set.before path ++ (path, discovered) :: behind ∧
      (set.without path).files = set.before path ++ behind := by
  obtain ⟨front, behind, split⟩ := List.append_of_mem member
  obtain ⟨-, fromHere, across⟩ := List.pairwise_append.mp (split ▸ ordered)
  have inFront (f) (member : f ∈ front) : Path.compare f.1 path = .lt :=
    across f member _ List.mem_cons_self
  have inBack (f) (member : f ∈ behind) : Path.compare f.1 path = .gt :=
    Std.OrientedCmp.gt_of_lt ((List.pairwise_cons.mp fromHere).1 f member)
  have self : Path.compare path path = .eq := Std.ReflCmp.compare_self
  have isFront : set.before path = front := by
    rw [before, split, List.filter_append, List.filter_cons_of_neg (by simp [self]),
      List.filter_eq_self.mpr (by simpa using inFront),
      List.filter_eq_nil_iff.mpr fun f member => by simp [inBack f member], List.append_nil]
  have others (f : String × Bool) (apart : Path.compare f.1 path ≠ .eq) :
      (!Path.same f.1 path) = true := by
    simpa [Path.compare_eq_eq] using apart
  have isRest : (set.without path).files = front ++ behind := by
    rw [without, split, List.filter_append,
      List.filter_cons_of_neg (by simp [Path.compare_eq_eq.mp self]),
      List.filter_eq_self.mpr fun f member => others f (by simp [inFront f member]),
      List.filter_eq_self.mpr fun f member => others f (by simp [inBack f member])]
  exact ⟨behind, isFront ▸ split, isFront ▸ isRest⟩

end MutantSieve.InputSet
