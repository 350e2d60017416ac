import Mathlib.Data.List.TakeWhile
import MutantSieve.Files.Path

/-!
# The order and the extensions of paths

Components are compared by their rank and then by their text, and paths by their lists of components
in the order of dictionaries. The order of paths is therefore transitive, and two paths are equal in
it when they have the same components.

The extension of a path is the text behind the last dot of its name. It says what a file is read as,
whatever the case of its letters.
-/

set_option autoImplicit false

namespace MutantSieve.Path

namespace Component

def text : Component → String
  | name s => s
  | root | current | parent => ""

theorem compare_eq_lex : Component.compare = compareLex (compareOn rank) (compareOn text) := by
  funext a b
  cases a <;> cases b <;>
    simp [Component.compare, compareLex, compareOn, rank, text, Std.ReflCmp.compare_self] <;> rfl

theorem eq_of_rank_of_text {a b : Component} (ranks : a.rank = b.rank) (texts : a.text = b.text) :
    a = b := by
  cases a <;> cases b <;> simp_all [rank, text]

instance : Std.TransCmp Component.compare := by
  rw [compare_eq_lex]
  infer_instance

instance : Std.LawfulEqCmp Component.compare where
  eq_of_compare {a b} h := by
    rw [compare_eq_lex, compareLex_eq_eq] at h
    exact eq_of_rank_of_text (Std.LawfulEqCmp.eq_of_compare h.1) (Std.LawfulEqCmp.eq_of_compare h.2)

end Component

theorem compareComponents_eq_lex : compareComponents = List.compareLex Component.compare := by
  funext as bs
  induction as generalizing bs with
  | nil => cases bs <;> rfl
  | cons a as ih =>
    cases bs with
    | nil => rfl
    | cons b bs =>
      rw [compareComponents, ih, List.compareLex_cons_cons]

instance : Std.TransCmp compareComponents := by
  rw [compareComponents_eq_lex]
  infer_instance

instance : Std.LawfulEqCmp compareComponents := by
  rw [compareComponents_eq_lex]
  infer_instance

instance : Std.TransCmp Path.compare where
  eq_swap {p q} :=
    show compareComponents (components p) (components q) =
        (compareComponents (components q) (components p)).swap from Std.OrientedCmp.eq_swap
  isLE_trans {p _ r} before behind :=
    show (compareComponents (components p) (components r)).isLE from
      Std.TransCmp.isLE_trans before behind

theorem compare_eq_eq {p q : String} : Path.compare p q = .eq ↔ same p q = true := by
  rw [Path.compare, Std.LawfulEqCmp.compare_eq_iff_eq, same, decide_eq_true_eq]

section Same

variable {p q r : String}

theorem same_iff : same p q = true ↔ components p = components q := decide_eq_true_iff

theorem same_self (p : String) : same p p = true := same_iff.mpr rfl

theorem same_symm (h : same p q = true) : same q p = true := same_iff.mpr (same_iff.mp h).symm

theorem same_trans (h : same p q = true) (h' : same q r = true) : same p r = true :=
  same_iff.mpr ((same_iff.mp h).trans (same_iff.mp h'))

end Same

section Extensions

/-- The name of what a path leads to ends in a dot, which does not stand at its start, and the
extension. -/
def EndsIn (path extension : String) : Prop :=
  ∃ stem, stem ≠ "" ∧ '.' ∉ extension.toList ∧ fileName? path = some (stem ++ "." ++ extension)

theorem extensionOf_append {stem e : List Char} (filled : stem ≠ []) (noDot : '.' ∉ e) :
    extensionOf (stem ++ '.' :: e) = some e := by
  have behind : ∀ c ∈ e.reverse, decide (c ≠ '.') = true := by
    simpa using List.forall_mem_ne'.mpr noDot
  have turned : (stem ++ '.' :: e).reverse = e.reverse ++ '.' :: stem.reverse := by simp
  rw [extensionOf, turned, List.dropWhile_append_of_pos behind, List.takeWhile_append_of_pos behind]
  simp [filled]

theorem of_extensionOf {name e : List Char} (h : extensionOf name = some e) :
    '.' ∉ e ∧ ∃ stem, stem ≠ [] ∧ name = stem ++ '.' :: e := by
  have parts : name.reverse.takeWhile (· ≠ '.') ++ name.reverse.dropWhile (· ≠ '.') =
      name.reverse := List.takeWhile_append_dropWhile
  have stop := List.head?_dropWhile_not (fun c => decide (c ≠ '.')) name.reverse
  rw [extensionOf] at h
  split at h
  case h_1 => cases h
  case h_2 c stem rest =>
    -- From the end of the name, all is passed over that is no dot, so this is the last one.
    have dot : c = '.' := by
      rw [rest, List.head?_cons] at stop
      exact not_not.mp (of_decide_eq_false stop)
    subst dot
    split at h
    case isTrue => cases h
    case isFalse filled =>
      cases h
      refine ⟨fun dot => ?_, stem.reverse, by simpa using filled, ?_⟩
      · have passed := List.mem_takeWhile_imp (List.mem_reverse.mp dot)
        exact of_decide_eq_true passed rfl
      · have turned := congrArg List.reverse parts
        rw [rest, List.reverse_append, List.reverse_reverse, List.reverse_cons,
          List.append_assoc] at turned
        exact turned.symm

theorem endsIn_iff {path e : String} :
    EndsIn path e ↔
      ∃ name, fileName? path = some name ∧ extensionOf name.toList = some e.toList := by
  constructor
  · rintro ⟨stem, filled, noDot, named⟩
    refine ⟨_, named, ?_⟩
    simp only [String.toList_append, List.append_assoc]
    exact extensionOf_append (by simpa using filled) noDot
  · rintro ⟨name, named, cut⟩
    obtain ⟨noDot, stem, filled, whole⟩ := of_extensionOf cut
    refine ⟨String.ofList stem, by simpa using filled, noDot, named.trans (congrArg some ?_)⟩
    apply String.toList_injective
    simpa using whole

def HasExtension (path extension : String) : Prop :=
  ∃ name found, fileName? path = some name ∧ extensionOf name.toList = some found ∧
    Text.sameLetters (String.ofList found) extension = true

theorem unitFormat_isSome_iff (path : String) :
    (unitFormat? path).isSome = true ↔ HasExtension path "json" ∨ HasExtension path "toml" := by
  rw [unitFormat?]
  simp only [HasExtension]
  cases fileName? path with
  | none => simp
  | some name =>
    rw [Option.bind_some]
    cases named : extensionOf name.toList with
    | none => simp [named]
    | some found =>
      simp only [named, Option.some.injEq, exists_and_left, exists_eq_left']
      split
      case isTrue json => simp [json]
      case isFalse noJson =>
        split
        case isTrue toml => simp [toml]
        case isFalse noToml => simp [noJson, noToml]

theorem hasExtension_iff {path extension : String} :
    HasExtension path extension ↔
      ∃ e, EndsIn path e ∧ Text.sameLetters e extension = true := by
  simp only [endsIn_iff]
  constructor
  · rintro ⟨name, found, named, cut, same⟩
    exact ⟨String.ofList found, ⟨name, named, by simpa using cut⟩, same⟩
  · rintro ⟨e, ⟨name, named, cut⟩, same⟩
    exact ⟨name, e.toList, named, cut, by simpa using same⟩

theorem unitFormat_eq_none_iff (path : String) :
    unitFormat? path = none ↔
      ∀ e, EndsIn path e →
        Text.sameLetters e "json" = false ∧ Text.sameLetters e "toml" = false := by
  rw [← Option.not_isSome_iff_eq_none, unitFormat_isSome_iff]
  simp only [hasExtension_iff, not_or, not_exists, not_and, Bool.not_eq_true]
  exact ⟨fun none e ends => ⟨none.1 e ends, none.2 e ends⟩,
    fun none => ⟨fun e ends => (none e ends).1, fun e ends => (none e ends).2⟩⟩

end Extensions

end MutantSieve.Path
