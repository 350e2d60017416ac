import MutantSieve.Proofs.InputSet

/-!
# Loading unit files

The files of an input set are loaded in order, and the first failure that is not passed over
decides. A discovered file is passed over when its contents are a text and no list of units.
Contents that are no text fail in another way, which is not passed over.
-/

set_option autoImplicit false

namespace MutantSieve

def UnitFormat.IsList (f : UnitFormat) (content : ByteArray) : Prop :=
  ∃ text units, String.fromUTF8? content = some text ∧ f.parse text = .ok units

theorem FileTree.content_of_isFile {t : FileTree} {path : String} (h : t.isFile path = true) :
    ∃ content, t.content? path = some content := by
  rw [isFile] at h
  cases place : t.find path <;> rw [place] at h <;> cases h
  exact ⟨_, by rw [content?, place]⟩

theorem FileTree.readText_of_content {t : FileTree} {path : String} {content : ByteArray}
    (h : t.content? path = some content) :
    t.readText path = (String.fromUTF8? content).elim (.error .io) .ok := by
  rw [content?] at h
  cases place : t.find path <;> rw [place] at h <;> cases h
  cases text : String.fromUTF8? content <;> simp [readText, place, text]

theorem FileTree.of_readText_error {t : FileTree} {path : String} {e : Error}
    (h : t.readText path = .error e) : e = .fileNotFound path ∨ e = .io := by
  rw [readText] at h
  split at h
  case h_1 => exact .inl (Except.error.inj h).symm
  case h_2 => exact .inr (Except.error.inj h).symm
  case h_3 => exact .inr (Except.error.inj h).symm
  case h_4 =>
    split at h
    · cases h
    · exact .inr (Except.error.inj h).symm

namespace ClassUnit

variable {t : FileTree} {path : String} {format : UnitFormat} {content : ByteArray}

theorem load_eq_ok_iff {units : List ClassUnit} :
    load t path = .ok units ↔
      ∃ format text, Path.unitFormat? path = some format ∧ t.readText path = .ok text ∧
        format.parse text = .ok units := by
  rw [load]
  cases Path.unitFormat? path with
  | none => simp
  | some format =>
    cases t.readText path with
    | error e => simp
    | ok text => cases parsed : format.parse text <;> simp [Except.mapError, parsed]

theorem load_eq_error_iff {e : Error} :
    load t path = .error e ↔
      Path.unitFormat? path = none ∧ e = .unsupportedInput path ∨
      ∃ format, Path.unitFormat? path = some format ∧
        (t.readText path = .error e ∨
          ∃ text refusal, t.readText path = .ok text ∧ format.parse text = .error refusal ∧
            e = .notUnits (some path) refusal.check?) := by
  rw [load]
  cases Path.unitFormat? path with
  | none => simp [eq_comm]
  | some format =>
    cases t.readText path with
    | error e => simp
    | ok text => cases parsed : format.parse text <;> simp [Except.mapError, parsed, eq_comm]

theorem load_of_no_text (extension : Path.unitFormat? path = some format)
    (file : t.content? path = some content) (noText : ¬ content.IsValidUTF8) :
    load t path = .error .io := by
  have unread : t.readText path = .error .io := by
    rw [FileTree.readText_of_content file, String.fromUTF8?, dif_neg noText, Option.elim_none]
  exact load_eq_error_iff.mpr (.inr ⟨format, extension, .inl unread⟩)

theorem load_of_no_list (extension : Path.unitFormat? path = some format)
    (file : t.content? path = some content) (text : content.IsValidUTF8)
    (noList : ¬ format.IsList content) :
    ∃ check, load t path = .error (.notUnits (some path) check) := by
  have decoded : String.fromUTF8? content = some (String.fromUTF8 content text) := dif_pos text
  have read : t.readText path = .ok (String.fromUTF8 content text) := by
    rw [FileTree.readText_of_content file, decoded, Option.elim_some]
  cases parsed : format.parse (String.fromUTF8 content text) with
  | error refusal =>
    refine ⟨refusal.check?, load_eq_error_iff.mpr (.inr ⟨format, extension, .inr ?_⟩)⟩
    exact ⟨_, refusal, read, parsed, rfl⟩
  | ok units => exact absurd ⟨_, units, decoded, parsed⟩ noList

theorem loadFiles_append (front behind : List (String × Bool)) :
    loadFiles t (front ++ behind) =
      (loadFiles t front).bind fun units => (loadFiles t behind).map (units ++ ·) := by
  induction front with
  | nil => cases h : loadFiles t behind <;> simp [loadFiles, Except.bind, Except.map, h]
  | cons f rest ih =>
    obtain ⟨path, discovered⟩ := f
    rw [List.cons_append, loadFiles, loadFiles, ih]
    cases load t path with
    | ok units =>
      cases loadFiles t rest <;> cases loadFiles t behind <;> simp [Except.bind, Except.map]
    | error e => dsimp only; split <;> rfl

theorem loadFiles_passedOver {check : Option Check}
    (h : load t path = .error (.notUnits (some path) check)) (behind : List (String × Bool)) :
    loadFiles t ((path, true) :: behind) = loadFiles t behind := by
  simp [loadFiles, h, passesOver]

theorem loadFiles_broken (h : load t path = .error .io) (discovered : Bool)
    (behind : List (String × Bool)) :
    loadFiles t ((path, discovered) :: behind) = .error .io := by
  simp [loadFiles, h, passesOver]

def unitsOf (t : FileTree) (path : String) : List ClassUnit :=
  (load t path).toOption.getD []

theorem unitsOf_ok {units : List ClassUnit} (h : load t path = .ok units) :
    unitsOf t path = units := by
  rw [unitsOf, h]
  rfl

theorem unitsOf_error {e : Error} (h : load t path = .error e) :
    unitsOf t path = [] := by
  rw [unitsOf, h]
  rfl

theorem loadFiles_eq_flatMap {files : List (String × Bool)} {units : List ClassUnit}
    (h : loadFiles t files = .ok units) : units = files.flatMap fun f => unitsOf t f.1 := by
  induction files generalizing units with
  | nil =>
    cases h
    rfl
  | cons f rest ih =>
    rw [loadFiles] at h
    rw [List.flatMap_cons]
    cases loaded : load t f.1 with
    | ok first =>
      rw [loaded] at h
      cases later : loadFiles t rest <;> rw [later] at h <;> cases h
      rw [unitsOf_ok loaded, ih later]
    | error e =>
      rw [loaded] at h
      rw [unitsOf_error loaded, List.nil_append]
      dsimp only at h
      split at h
      · exact ih h
      · cases h

/-- A failure behind some files hides what else is behind them only if one of those files fails, or
if the others end in that failure too. -/
theorem cut_short_iff (front : Except Error (List ClassUnit))
    (go : List ClassUnit → Except Error (List ClassUnit)) :
    ((front.bind fun _ => .error .io) = front.bind go) ↔
      (∃ e, front = .error e) ∨ front.bind go = .error .io := by
  cases front with
  | error e => exact ⟨fun _ => .inl ⟨e, rfl⟩, fun _ => rfl⟩
  | ok units =>
    refine ⟨fun same => .inr same.symm, fun h => ?_⟩
    rcases h with ⟨e, failed⟩ | same
    · cases failed
    · exact same.symm

/-- A discovered file whose contents are a text, but no list of units, has no effect on what is
loaded. Where they are no text either, the loading fails: with the failure of an earlier file, or
else as if the file could not be read. So the file has no effect just when its contents are a text,
or an earlier file fails, or the loading of the other files ends in such a failure. -/
theorem loadAll_of_discovered {environment : List (String × String)} {paths exclude : List String}
    {set : InputSet} (collected : InputSet.ofPaths t environment paths exclude = .ok set)
    (discovered : (path, true) ∈ set.files) :
    ∃ format content, Path.unitFormat? path = some format ∧ t.content? path = some content ∧
      (¬ format.IsList content →
        (¬ content.IsValidUTF8 →
          loadAll t set = (loadFiles t (set.before path)).bind fun _ => .error .io) ∧
        (loadAll t set = loadAll t (set.without path) ↔
          content.IsValidUTF8 ∨ (∃ e, loadFiles t (set.before path) = .error e) ∨
            loadAll t (set.without path) = .error .io)) := by
  have known := InputSet.ofPaths_collected collected
  obtain ⟨isFile, hasFormat⟩ := known.discovered path discovered
  obtain ⟨format, extension⟩ := Option.isSome_iff_exists.mp hasFormat
  obtain ⟨content, file⟩ := FileTree.content_of_isFile isFile
  obtain ⟨behind, whole, rest⟩ := known.ordered.cut discovered
  have others : loadAll t (set.without path) =
      (loadFiles t (set.before path)).bind fun units => (loadFiles t behind).map (units ++ ·) := by
    rw [loadAll, rest, loadFiles_append]
  refine ⟨format, content, extension, file, fun noList => ?_⟩
  by_cases text : content.IsValidUTF8
  · obtain ⟨check, refused⟩ := load_of_no_list extension file text noList
    have same : loadAll t set = loadAll t (set.without path) := by
      rw [others, loadAll, whole, loadFiles_append, loadFiles_passedOver refused]
    exact ⟨fun noText => absurd text noText, fun _ => .inl text, fun _ => same⟩
  · have broken : loadAll t set = (loadFiles t (set.before path)).bind fun _ => .error .io := by
      rw [loadAll, whole, loadFiles_append,
        loadFiles_broken (load_of_no_text extension file text)]
      rfl
    refine ⟨fun _ => broken, ?_⟩
    rw [broken, others, cut_short_iff, or_iff_right text]

def noteTree (content : ByteArray) : FileTree :=
  { root := [("units", .folder [("notes.json", .file content)])]
    here := [] }

def noteSet : InputSet := ⟨[("units/notes.json", true)]⟩

theorem numbers_passed_over :
    InputSet.ofPaths (noteTree "[1]".toUTF8) [] ["units"] [] = .ok noteSet ∧
      ("units/notes.json", true) ∈ noteSet.files ∧
      loadAll (noteTree "[1]".toUTF8) noteSet =
        loadAll (noteTree "[1]".toUTF8) (noteSet.without "units/notes.json") := by
  have collected : InputSet.ofPaths (noteTree "[1]".toUTF8) [] ["units"] [] = .ok noteSet := by rfl
  have discovered : ("units/notes.json", true) ∈ noteSet.files := by decide
  obtain ⟨format, content, extension, file, skipped⟩ := loadAll_of_discovered collected discovered
  have isJson : format = .json := Option.some.inj (extension.symm.trans (by rfl))
  have isNumbers : content = "[1]".toUTF8 := Option.some.inj (file.symm.trans (by rfl))
  subst isJson isNumbers
  refine ⟨collected, discovered, (skipped ?_).2.mpr (.inl (String.isValidUTF8 "[1]"))⟩
  rintro ⟨text, units, decoded, parsed⟩
  have isText : text = "[1]" := Option.some.inj (decoded.symm.trans (by rfl))
  subst isText
  cases parsed

/-- A byte that is no text breaks the loading, though it is no list of units and the folder holds
nothing else. -/
theorem bytes_not_passed_over :
    InputSet.ofPaths (noteTree ⟨#[0xff]⟩) [] ["units"] [] = .ok noteSet ∧
      ("units/notes.json", true) ∈ noteSet.files ∧
      Path.unitFormat? "units/notes.json" = some .json ∧
      (noteTree ⟨#[0xff]⟩).content? "units/notes.json" = some ⟨#[0xff]⟩ ∧
      ¬ UnitFormat.json.IsList ⟨#[0xff]⟩ ∧
      loadAll (noteTree ⟨#[0xff]⟩) noteSet = .error .io ∧
      loadAll (noteTree ⟨#[0xff]⟩) (noteSet.without "units/notes.json") = .ok [] := by
  have noText : ¬ (ByteArray.mk #[0xff]).IsValidUTF8 := by decide
  refine ⟨by rfl, by decide, by rfl, by rfl, ?_, ?_, by rfl⟩
  · rintro ⟨text, units, decoded, -⟩
    simp [String.fromUTF8?, noText] at decoded
  · exact loadFiles_broken (load_of_no_text (by rfl) (by rfl) noText) true []

end ClassUnit

end MutantSieve
