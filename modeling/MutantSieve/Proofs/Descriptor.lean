import Mathlib.Data.List.TakeWhile
import MutantSieve.Descriptor

/-!
# Reading and writing descriptors

A descriptor is written in one way only. Reading takes exactly the written forms of descriptors
whose class names can stand before a semicolon, and gives back what was written, whatever else the
names hold.
-/

set_option autoImplicit false

namespace MutantSieve

namespace FieldType

def Named : FieldType → Prop
  | object name => name ≠ "" ∧ ';' ∉ name.toList
  | array element => element.Named
  | _ => True

section Names

variable {name : List Char}

theorem takeWhile_name (h : ';' ∉ name) (rest : List Char) :
    (name ++ rest).takeWhile (· ≠ ';') = name ++ rest.takeWhile (· ≠ ';') := by
  apply List.takeWhile_append_of_pos
  intro c hc
  apply decide_eq_true
  rintro rfl
  exact h hc

theorem dropWhile_name (h : ';' ∉ name) (rest : List Char) :
    (name ++ rest).dropWhile (· ≠ ';') = rest.dropWhile (· ≠ ';') := by
  apply List.dropWhile_append_of_pos
  intro c hc
  apply decide_eq_true
  rintro rfl
  exact h hc

theorem readName_unterminated (h : ';' ∉ name) : readName name = .error .unterminatedName := by
  have left := dropWhile_name h []
  simp only [List.append_nil, List.dropWhile_nil] at left
  simp only [readName, left]

theorem readName_empty (rest : List Char) : readName (';' :: rest) = .error .emptyName := by
  simp [readName]

theorem readName_append (h : ';' ∉ name) (filled : name ≠ []) (rest : List Char) :
    readName (name ++ ';' :: rest) = .ok (object (String.ofList name), rest) := by
  simp only [readName, takeWhile_name h, dropWhile_name h]
  simp [filled]

end Names

theorem of_readName {s rest : List Char} {t : FieldType} (h : readName s = .ok (t, rest)) :
    t.Named ∧ 'L' :: s = t.render ++ rest := by
  by_cases ends : ';' ∈ s
  · obtain ⟨name, left, rfl, clear⟩ := List.eq_append_cons_of_mem ends
    cases name with
    | nil =>
      rw [List.nil_append, readName_empty] at h
      cases h
    | cons c name =>
      rw [readName_append clear (List.cons_ne_nil c name)] at h
      cases h
      have filled : String.ofList (c :: name) ≠ "" := by simp
      exact ⟨⟨filled, by simpa using clear⟩, by simp [render]⟩
  · rw [readName_unterminated ends] at h
    cases h

/-- What follows a type stays, as its text shows where it ends. -/
theorem read_render {t : FieldType} (h : t.Named) (rest : List Char) :
    read (t.render ++ rest) = .ok (t, rest) := by
  induction t with
  | object name =>
    have filled : name.toList ≠ [] := by simpa using h.1
    have named := readName_append h.2 filled rest
    simpa [render, read] using named
  | array element ih =>
    have inner := ih h
    simp [render, read, inner]
  | _ => rfl

theorem of_read {s rest : List Char} {t : FieldType} (h : read s = .ok (t, rest)) :
    t.Named ∧ s = t.render ++ rest := by
  fun_induction read s generalizing t rest with
  | case10 tail => exact of_readName h
  | case11 tail element inner eq ih =>
    cases h
    obtain ⟨named, text⟩ := ih eq
    exact ⟨named, by simp [render, text]⟩
  | case1 => cases h
  | case12 => cases h
  | case13 => cases h
  | _ =>
    cases h
    exact ⟨trivial, rfl⟩

theorem read_eq_ok_iff {s rest : List Char} {t : FieldType} :
    read s = .ok (t, rest) ↔ t.Named ∧ s = t.render ++ rest := by
  constructor
  · exact of_read
  · rintro ⟨named, rfl⟩
    exact read_render named rest

theorem render_tag (t : FieldType) :
    ∃ tag tail, t.render = tag :: tail ∧ tag ≠ ')' ∧ tag ≠ 'V' := by
  cases t <;> exact ⟨_, _, rfl, by decide, by decide⟩

end FieldType

namespace MethodDescriptor

def Named (m : MethodDescriptor) : Prop :=
  (∀ t ∈ m.arguments, t.Named) ∧ ∀ t ∈ m.returnType, t.Named

theorem readArguments_type {s rest : List Char} {t : FieldType}
    (first : FieldType.read s = .ok (t, rest)) :
    readArguments s = (readArguments rest).map fun p => (t :: p.1, p.2) := by
  have text := (FieldType.of_read first).2
  obtain ⟨tag, tail, tagged, inside, -⟩ := t.render_tag
  rw [tagged, List.cons_append] at text
  rw [text] at first ⊢
  rw [readArguments]
  · split
    · rename_i fault failed
      rw [first] at failed
      cases failed
    · rename_i t' rest' again
      rw [first] at again
      cases again
      cases readArguments rest <;> rfl
  · intro closing
    exact absurd closing inside

theorem readArguments_append {ts : List FieldType} (named : ∀ t ∈ ts, t.Named) (s : List Char) :
    readArguments (renderArguments ts ++ s) =
      (readArguments s).map fun p => (ts ++ p.1, p.2) := by
  induction ts with
  | nil =>
    rw [renderArguments, List.nil_append]
    cases readArguments s <;> rfl
  | cons t ts ih =>
    have first := FieldType.read_render (named t (by simp)) (renderArguments ts ++ s)
    have others := ih fun u hu => named u (by simp [hu])
    rw [renderArguments, List.append_assoc, readArguments_type first, others]
    cases readArguments s <;> rfl

theorem readArguments_render {ts : List FieldType} (h : ∀ t ∈ ts, t.Named) (rest : List Char) :
    readArguments (renderArguments ts ++ ')' :: rest) = .ok (ts, rest) := by
  rw [readArguments_append h, readArguments]
  simp [Except.map]

theorem of_readArguments {s rest : List Char} {ts : List FieldType}
    (h : readArguments s = .ok (ts, rest)) :
    (∀ t ∈ ts, t.Named) ∧ s = renderArguments ts ++ ')' :: rest := by
  fun_induction readArguments s generalizing ts rest with
  | case1 => cases h
  | case2 tail =>
    cases h
    exact ⟨by simp, rfl⟩
  | case3 => cases h
  | case4 => cases h
  | case5 c tail closing t left first us left' others ih =>
    cases h
    obtain ⟨named, text⟩ := FieldType.of_read first
    obtain ⟨named', text'⟩ := ih others
    constructor
    · simpa using ⟨named, named'⟩
    · rw [text, text', renderArguments, List.append_assoc]

theorem readArguments_eq_ok_iff {s rest : List Char} {ts : List FieldType} :
    readArguments s = .ok (ts, rest) ↔
      (∀ t ∈ ts, t.Named) ∧ s = renderArguments ts ++ ')' :: rest := by
  constructor
  · exact of_readArguments
  · rintro ⟨named, rfl⟩
    exact readArguments_render named rest

/-- A `V` alone is no type, so the two forms of a return type are never confused. -/
theorem readReturn_eq_ok_iff {s : List Char} {returnType : Option FieldType} :
    readReturn s = .ok returnType ↔
      (∀ t ∈ returnType, t.Named) ∧ s = renderReturn returnType := by
  by_cases void : s = ['V']
  · rw [readReturn, if_pos void, void]
    cases returnType with
    | none => simp [renderReturn]
    | some t =>
      obtain ⟨tag, tail, tagged, -, other⟩ := t.render_tag
      have different : ['V'] ≠ t.render := by
        rw [tagged]
        intro same
        exact other (List.cons.inj same).1.symm
      simp [renderReturn, different]
  · rw [readReturn, if_neg void]
    cases returnType with
    | none =>
      have absent : s ≠ renderReturn none := void
      constructor
      · intro h
        split at h <;> cases h
      · rintro ⟨-, text⟩
        exact absurd text absent
    | some t =>
      have typed : FieldType.read s = .ok (t, []) ↔ t.Named ∧ s = t.render ++ [] :=
        FieldType.read_eq_ok_iff
      rw [List.append_nil] at typed
      simp only [Option.mem_some_iff, forall_eq', renderReturn]
      rw [← typed]
      split <;> simp_all

theorem read_eq_ok_iff {s : List Char} {m : MethodDescriptor} :
    read s = .ok m ↔ m.Named ∧ s = m.render := by
  constructor
  · intro h
    unfold read at h
    split at h
    · rename_i rest
      split at h
      · cases h
      rename_i ts left arguments
      split at h
      · cases h
      rename_i returnType returned
      cases h
      obtain ⟨named, text⟩ := readArguments_eq_ok_iff.mp arguments
      obtain ⟨named', text'⟩ := readReturn_eq_ok_iff.mp returned
      exact ⟨⟨named, named'⟩, by rw [text, text', render, List.cons_append]⟩
    · cases h
  · rintro ⟨⟨named, named'⟩, rfl⟩
    have arguments := readArguments_render named (renderReturn m.returnType)
    have returned := readReturn_eq_ok_iff.mpr ⟨named', rfl⟩
    simp only [render, read, List.cons_append, arguments, returned]

/-- Reading is the inverse of writing, on the texts of descriptors whose names can be written and on
no others. The number of arguments is told of these texts and is that of the types written between
the parentheses. -/
theorem parse_iff_display (text : String) :
    (∀ m, parse text = .ok m ↔ m.Named ∧ m.display = text) ∧
    ∀ n, argumentCount text = .ok n ↔
      ∃ m : MethodDescriptor, m.Named ∧ m.display = text ∧ m.arguments.length = n := by
  have parsed : ∀ m, parse text = .ok m ↔ m.Named ∧ m.display = text := by
    intro m
    have written : text.toList = m.render ↔ m.display = text := by
      rw [display, ← String.toList_inj, String.toList_ofList]
      exact eq_comm
    rw [parse, read_eq_ok_iff, written]
  refine ⟨parsed, ?_⟩
  intro n
  constructor
  · intro counted
    cases found : parse text with
    | error fault =>
      rw [argumentCount, found] at counted
      cases counted
    | ok m =>
      rw [argumentCount, found] at counted
      obtain ⟨named, written⟩ := (parsed m).mp found
      exact ⟨m, named, written, Except.ok.inj counted⟩
  · rintro ⟨m, named, written, rfl⟩
    rw [argumentCount, (parsed m).mpr ⟨named, written⟩]
    rfl

end MethodDescriptor

end MutantSieve
