import MutantSieve.Proofs.Loading
import MutantSieve.Proofs.Success
import MutantSieve.Proofs.UnitFile

/-!
# The order of loading

The files of an input set are loaded in their order up to the first one that stops the loading: a
named file that is not loaded, or a discovered one that fails otherwise than by being no list of
units. Its failure is the failure of the whole, and without such a file the units of all files stand
one behind the other.
-/

set_option autoImplicit false

namespace MutantSieve

theorem exists_headed (heading : String) (check : Option Check) :
    ∃ detail, headed heading check = heading ++ detail := by
  cases check with
  | none => exact ⟨"", String.append_empty.symm⟩
  | some found => exact ⟨": " ++ found.message, String.append_assoc⟩

namespace ClassUnit

variable {t : FileTree} {path : String} {e : Error}

theorem load_unsupported_iff :
    load t path = .error (.unsupportedInput path) ↔ Path.unitFormat? path = none := by
  rw [load_eq_error_iff]
  constructor
  · rintro (⟨none, -⟩ | ⟨format, -, unread | ⟨text, refusal, -, -, other⟩⟩)
    · exact none
    · rcases FileTree.of_readText_error unread with other | other <;> cases other
    · cases other
  · exact fun none => .inl ⟨none, rfl⟩

theorem of_load_notUnits {named : Option String} {check : Option Check}
    (h : load t path = .error (.notUnits named check)) : named = some path := by
  rcases load_eq_error_iff.mp h with ⟨-, other⟩ | ⟨format, -, unread | ⟨text, refusal, -, -, same⟩⟩
  · cases other
  · rcases FileTree.of_readText_error unread with other | other <;> cases other
  · exact (Error.notUnits.inj same).1

/-- The loading stops at a file: it was named and is not loaded, or it was discovered and fails
otherwise than by being no list of units. -/
def StopsWith (t : FileTree) (f : String × Bool) (e : Error) : Prop :=
  load t f.1 = .error e ∧ (f.2 = true → ∀ named check, e ≠ .notUnits named check)

section Stops

variable {f : String × Bool}

theorem takes_iff : Takes t f ↔ ∀ e, ¬ StopsWith t f e := by
  constructor
  · rintro (⟨units, loaded⟩ | ⟨discovered, named, check, passed⟩) e ⟨failed, other⟩
    · rw [loaded] at failed
      cases failed
    · rw [passed] at failed
      exact other discovered named check (Except.error.inj failed).symm
  · intro goesOn
    cases loaded : load t f.1 with
    | ok units => exact .inl ⟨units, loaded⟩
    | error e =>
      have passed : ¬ (f.2 = true → ∀ named check, e ≠ .notUnits named check) :=
        fun other => goesOn e ⟨loaded, other⟩
      simp only [Classical.not_imp, not_forall, not_not] at passed
      obtain ⟨discovered, named, check, rfl⟩ := passed
      exact .inr ⟨discovered, named, check, loaded⟩

theorem loadFiles_of_takes (h : Takes t f) (behind : List (String × Bool)) :
    loadFiles t (f :: behind) = .error e ↔ loadFiles t behind = .error e := by
  rw [loadFiles]
  rcases h with ⟨units, loaded⟩ | ⟨discovered, named, check, passed⟩
  · rw [loaded]
    exact map_eq_error_iff
  · rw [passed, discovered]
    rfl

theorem loadFiles_of_stops (h : StopsWith t f e) (behind : List (String × Bool)) :
    loadFiles t (f :: behind) = .error e := by
  obtain ⟨failed, other⟩ := h
  rw [loadFiles, failed]
  refine if_neg fun passed => ?_
  obtain ⟨discovered, named, check, same⟩ := (passesOver_iff f.2 e).mp passed
  exact other discovered named check same

end Stops

theorem loadFiles_error_iff {files : List (String × Bool)} :
    loadFiles t files = .error e ↔
      ∃ front f behind, files = front ++ f :: behind ∧
        (∀ g ∈ front, ∀ e', ¬ StopsWith t g e') ∧ StopsWith t f e := by
  constructor
  · intro failed
    induction files with
    | nil => cases failed
    | cons f rest ih =>
      by_cases taken : Takes t f
      · obtain ⟨front, g, behind, rfl, goOn, stops⟩ :=
          ih ((loadFiles_of_takes taken rest).mp failed)
        exact ⟨f :: front, g, behind, rfl,
          List.forall_mem_cons.mpr ⟨takes_iff.mp taken, goOn⟩, stops⟩
      · simp only [takes_iff, not_forall, not_not] at taken
        obtain ⟨e', stops⟩ := taken
        rw [loadFiles_of_stops stops rest] at failed
        cases failed
        exact ⟨[], f, rest, rfl, by simp, stops⟩
  -- The files in front are passed one by one; none of them changes what is behind it.
  · rintro ⟨front, f, behind, rfl, goOn, stops⟩
    induction front with
    | nil => exact loadFiles_of_stops stops behind
    | cons g front ih =>
      rw [List.forall_mem_cons, ← takes_iff] at goOn
      exact (loadFiles_of_takes goOn.1 _).mpr (ih goOn.2)

/-- The loading of an input set succeeds just when every named file is loaded and every discovered
one is loaded or is no list of units. Then the units are those of the files, in the order of the
files and in each file in the order of its document. Otherwise the failure is that of the first file
at which the loading stops. A file without an extension of unit files is refused, whatever is in it,
and a file that is no list of units is named in the failure. -/
theorem loadAll_outcome (t : FileTree) (set : InputSet) :
    ((∃ units, loadAll t set = .ok units) ↔
      (∀ path, (path, false) ∈ set.files → ∃ units, load t path = .ok units) ∧
        ∀ path, (path, true) ∈ set.files →
          (∃ units, load t path = .ok units) ∨
            ∃ named check, load t path = .error (.notUnits named check)) ∧
    (∀ units, loadAll t set = .ok units → units = set.files.flatMap fun f => unitsOf t f.1) ∧
    (∀ path units, load t path = .ok units →
      ∃ format text, Path.unitFormat? path = some format ∧ t.readText path = .ok text ∧
        format.Lists text units) ∧
    (∀ e, loadAll t set = .error e ↔
      ∃ front f behind, set.files = front ++ f :: behind ∧
        (∀ g ∈ front, ∀ e', ¬ StopsWith t g e') ∧ StopsWith t f e) ∧
    (∀ path, load t path = .error (.unsupportedInput path) ↔
      ∀ extension, Path.EndsIn path extension →
        Text.sameLetters extension "json" = false ∧ Text.sameLetters extension "toml" = false) ∧
    ∀ path named check, load t path = .error (.notUnits named check) →
      named = some path ∧
        ∃ detail, (Error.notUnits named check).message = "Failed to parse " ++ path ++ detail := by
  refine ⟨?_, fun units => loadFiles_eq_flatMap, ?_, fun e => loadFiles_error_iff, ?_, ?_⟩
  · rw [loadAll_ok_iff]
    constructor
    · intro taken
      refine ⟨fun path named => ?_, fun path found => ?_⟩
      · exact (taken _ named).resolve_right fun discovered => nomatch discovered.1
      · exact (taken _ found).imp_right fun passed => passed.2
    · rintro ⟨named, found⟩ ⟨path, discovered⟩ member
      cases discovered with
      | false => exact .inl (named path member)
      | true => exact (found path member).imp_right fun passed => ⟨rfl, passed⟩
  · intro path units loaded
    obtain ⟨format, text, extension, read, parsed⟩ := load_eq_ok_iff.mp loaded
    exact ⟨format, text, extension, read, UnitFormat.lists_of_parse parsed⟩
  · intro path
    rw [load_unsupported_iff, Path.unitFormat_eq_none_iff]
  · intro path named check failed
    cases of_load_notUnits failed
    exact ⟨rfl, exists_headed _ check⟩

def mixedTree : FileTree :=
  { root := [("units", .folder
      [("a.json", .file "[1]".toUTF8), ("b.json", .file "[1]".toUTF8),
        ("c.json", .file ⟨#[0xff]⟩)])]
    here := [] }

def mixedSet : InputSet :=
  ⟨[("units/a.json", true), ("units/b.json", false), ("units/c.json", false)]⟩

/-- The discovered list of numbers is passed over, and the named one stops the loading before the
file that is no text is read. -/
theorem mixedSet_stops :
    loadAll mixedTree mixedSet = .error (.notUnits (some "units/b.json") none) := by
  have first : load mixedTree "units/a.json" = .error (.notUnits (some "units/a.json") none) := by
    rfl
  have second : load mixedTree "units/b.json" = .error (.notUnits (some "units/b.json") none) := by
    rfl
  have goesOn : ∀ e, ¬ StopsWith mixedTree ("units/a.json", true) e :=
    takes_iff.mp (.inr ⟨rfl, _, _, first⟩)
  exact ((loadAll_outcome mixedTree mixedSet).2.2.2.1 _).mpr
    ⟨[("units/a.json", true)], ("units/b.json", false), [("units/c.json", false)], rfl,
      by simpa using goesOn, second, nofun⟩

end ClassUnit

end MutantSieve
