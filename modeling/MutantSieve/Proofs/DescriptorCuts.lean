import MutantSieve.Error
import MutantSieve.Proofs.Descriptor

/-!
# Cut and extended descriptors

The text of a descriptor shows where it ends, so no descriptor goes on as another. Every text that
is a descriptor without its end was cut at one of five kinds of places, and the refusal of the text
names the kind. A text with more behind a descriptor is refused for what is behind, unless the
descriptor ends in the sign for no value, which has no meaning but at the end.
-/

set_option autoImplicit false

namespace MutantSieve

namespace MethodDescriptor

inductive Place where
  | opening
  /-- An argument or the closing parenthesis. -/
  | argument
  /-- The rest of a class name with its semicolon. -/
  | name
  /-- The element of an array. -/
  | element
  | returnType
  deriving DecidableEq, Repr

def Place.reason : Place → String
  | opening => "must start with '('"
  | argument => "missing ')'"
  | name => "unterminated class name"
  | element | returnType => "unexpected end of descriptor"

def Place.fault : Place → Fault
  | opening => .noOpening
  | argument => .noClosing
  | name => .unterminatedName
  | element | returnType => .ended

theorem Place.message_fault (place : Place) : place.fault.message = place.reason := by
  cases place <;> rfl

def Refused (text reason : String) : Prop :=
  ∃ fault, ofText text = .error (.check (.badDescriptor text fault)) ∧ fault.message = reason

theorem refused_of_parse {text : String} {fault : Fault} (h : parse text = .error fault) :
    Refused text fault.message := by
  refine ⟨fault, ?_, rfl⟩
  rw [ofText, h]
  rfl

end MethodDescriptor

open MethodDescriptor (Place)

namespace FieldType

inductive Cut : FieldType → List Char → Place → Prop
  | name {name : String} {part rest : List Char} (split : name.toList = part ++ rest) :
      Cut (object name) ('L' :: part) .name
  | bracket (element : FieldType) : Cut (array element) ['['] .element
  | inside {element : FieldType} {part : List Char} {place : Place}
      (cut : Cut element part place) : Cut (array element) ('[' :: part) place

variable {t : FieldType} {part rest : List Char} {place : Place}

theorem not_cut_single {c : Char} (text : [c] = part ++ rest) (begun : part ≠ [])
    (unfinished : rest ≠ []) : False := by
  rcases List.cons_eq_append_iff.mp text with ⟨none, -⟩ | ⟨part', -, none⟩
  · exact begun none
  · exact unfinished (List.append_eq_nil_iff.mp none.symm).2

theorem exists_cut (text : t.render = part ++ rest) (begun : part ≠ []) (unfinished : rest ≠ []) :
    ∃ place, t.Cut part place := by
  induction t generalizing part with
  | object name =>
    rw [render, List.cons_append] at text
    obtain ⟨none, -⟩ | ⟨part', rfl, tail⟩ := List.cons_eq_append_iff.mp text
    · exact absurd none begun
    -- The cut is behind the last character of the name, or before it.
    · rcases List.append_eq_append_iff.mp tail with ⟨more, rfl, last⟩ | ⟨left, split, -⟩
      · rcases List.cons_eq_append_iff.mp last with ⟨rfl, -⟩ | ⟨more', rfl, none⟩
        · have whole : name.toList = (name.toList ++ []) ++ [] := by simp
          exact ⟨.name, .name whole⟩
        · exact absurd (List.append_eq_nil_iff.mp none.symm).2 unfinished
      · exact ⟨.name, .name split⟩
  | array element ih =>
    rw [render] at text
    obtain ⟨none, -⟩ | ⟨part', rfl, tail⟩ := List.cons_eq_append_iff.mp text
    · exact absurd none begun
    · by_cases start : part' = []
      · rw [start]
        exact ⟨.element, .bracket element⟩
      · obtain ⟨place, cut⟩ := ih tail start
        exact ⟨place, .inside cut⟩
  | _ => exact (not_cut_single text begun unfinished).elim

theorem Cut.unfinished (h : t.Cut part place) : ∃ rest, rest ≠ [] ∧ t.render = part ++ rest := by
  induction h with
  | @name name part rest split => exact ⟨rest ++ [';'], by simp, by simp [render, split]⟩
  | bracket element =>
    obtain ⟨tag, tail, tagged, -⟩ := element.render_tag
    exact ⟨element.render, by simp [tagged], rfl⟩
  | inside _ ih =>
    obtain ⟨rest, unfinished, text⟩ := ih
    exact ⟨rest, unfinished, by rw [render, text, List.cons_append]⟩

theorem Cut.read (named : t.Named) (h : t.Cut part place) : read part = .error place.fault := by
  induction h with
  | @name name part rest split =>
    have clear : ';' ∉ part := by
      intro inside
      exact named.2 (by simp [split, inside])
    exact readName_unterminated clear
  | bracket element => rfl
  | inside _ ih =>
    have inner := ih named
    simp only [FieldType.read, inner]

theorem Cut.begun (h : t.Cut part place) : ∃ tag tail, part = tag :: tail ∧ tag ≠ ')' := by
  cases h <;> exact ⟨_, _, rfl, by decide⟩

end FieldType

namespace MethodDescriptor

inductive Cut (m : MethodDescriptor) : List Char → Place → Prop
  | opening : Cut m [] .opening
  | argument {front behind : List FieldType} (split : m.arguments = front ++ behind) :
      Cut m ('(' :: renderArguments front) .argument
  | inArgument {front behind : List FieldType} {t : FieldType} {part : List Char} {place : Place}
      (split : m.arguments = front ++ t :: behind) (cut : t.Cut part place) :
      Cut m ('(' :: (renderArguments front ++ part)) place
  | returnType : Cut m ('(' :: (renderArguments m.arguments ++ [')'])) .returnType
  | inReturn {t : FieldType} {part : List Char} {place : Place} (typed : m.returnType = some t)
      (cut : t.Cut part place) :
      Cut m ('(' :: (renderArguments m.arguments ++ ')' :: part)) place

section Arguments

variable {ts : List FieldType} {part rest : List Char}

theorem renderArguments_append (front behind : List FieldType) :
    renderArguments (front ++ behind) = renderArguments front ++ renderArguments behind := by
  induction front with
  | nil => rfl
  | cons t front ih =>
    rw [List.cons_append, renderArguments, renderArguments, ih, List.append_assoc]

theorem arguments_cut (text : renderArguments ts = part ++ rest) :
    (∃ front behind, ts = front ++ behind ∧ part = renderArguments front) ∨
      ∃ front t behind inner place, ts = front ++ t :: behind ∧ FieldType.Cut t inner place ∧
        part = renderArguments front ++ inner := by
  induction ts generalizing part with
  | nil =>
    have none : part = [] := (List.append_eq_nil_iff.mp text.symm).1
    exact .inl ⟨[], [], rfl, none⟩
  | cons t ts ih =>
    rw [renderArguments] at text
    rcases List.append_eq_append_iff.mp text with ⟨part', rfl, others⟩ | ⟨left, within, -⟩
    · rcases ih others with
        ⟨front, behind, rfl, rfl⟩ | ⟨front, u, behind, inner, place, rfl, cut, rfl⟩
      · exact .inl ⟨t :: front, behind, rfl, rfl⟩
      · refine .inr ⟨t :: front, u, behind, inner, place, rfl, cut, ?_⟩
        rw [renderArguments, List.append_assoc]
    · by_cases start : part = []
      · exact .inl ⟨[], t :: ts, rfl, start⟩
      by_cases whole : left = []
      · refine .inl ⟨[t], ts, rfl, ?_⟩
        simp [renderArguments, within, whole]
      · obtain ⟨place, cut⟩ := FieldType.exists_cut within start whole
        exact .inr ⟨[], t, ts, part, place, rfl, cut, rfl⟩

theorem readArguments_fault {tag : Char} {tail : List Char} {fault : Fault} (inside : tag ≠ ')')
    (first : FieldType.read (tag :: tail) = .error fault) :
    readArguments (tag :: tail) = .error fault := by
  rw [readArguments]
  · split
    · rename_i fault' failed
      rw [first] at failed
      cases failed
      rfl
    · rename_i t rest read
      rw [first] at read
      cases read
  · intro closing
    exact absurd closing inside

end Arguments

section Whole

variable {m : MethodDescriptor} {part rest : List Char} {place : Place}

theorem exists_cut (text : m.render = part ++ rest) (unfinished : rest ≠ []) :
    ∃ place, m.Cut part place := by
  rw [render, List.cons_append] at text
  obtain ⟨rfl, -⟩ | ⟨part', rfl, tail⟩ := List.cons_eq_append_iff.mp text
  · exact ⟨_, .opening⟩
  rcases List.append_eq_append_iff.mp tail with ⟨behind, rfl, closing⟩ | ⟨left, within, -⟩
  · obtain ⟨rfl, -⟩ | ⟨returned, rfl, typed⟩ := List.cons_eq_append_iff.mp closing
    · have split : m.arguments = m.arguments ++ [] := (List.append_nil _).symm
      rw [List.append_nil]
      exact ⟨_, .argument split⟩
    by_cases start : returned = []
    · rw [start]
      exact ⟨_, .returnType⟩
    cases type : m.returnType with
    | none =>
      rw [type, renderReturn] at typed
      exact (FieldType.not_cut_single typed start unfinished).elim
    | some t =>
      rw [type, renderReturn] at typed
      obtain ⟨place, cut⟩ := FieldType.exists_cut typed start unfinished
      exact ⟨place, .inReturn type cut⟩
  · rcases arguments_cut within with
      ⟨front, behind, split, rfl⟩ | ⟨front, t, behind, inner, place, split, cut, rfl⟩
    · exact ⟨_, .argument split⟩
    · exact ⟨place, .inArgument split cut⟩

theorem Cut.unfinished (h : m.Cut part place) : ∃ rest, rest ≠ [] ∧ m.render = part ++ rest := by
  cases h with
  | opening => exact ⟨m.render, by simp [render], rfl⟩
  | @argument front behind split =>
    refine ⟨renderArguments behind ++ ')' :: renderReturn m.returnType, by simp, ?_⟩
    simp [render, split, renderArguments_append]
  | @inArgument front behind t part place split cut =>
    obtain ⟨rest, -, text⟩ := cut.unfinished
    refine ⟨rest ++ renderArguments behind ++ ')' :: renderReturn m.returnType, by simp, ?_⟩
    simp [render, split, renderArguments_append, renderArguments, text]
  | returnType =>
    refine ⟨renderReturn m.returnType, ?_, by simp [render]⟩
    cases m.returnType with
    | none => simp [renderReturn]
    | some t =>
      obtain ⟨tag, tail, tagged, -⟩ := t.render_tag
      simp [renderReturn, tagged]
  | inReturn typed cut =>
    obtain ⟨rest, unfinished, text⟩ := cut.unfinished
    exact ⟨rest, unfinished, by simp [render, typed, renderReturn, text]⟩

theorem Cut.read (named : m.Named) (h : m.Cut part place) : read part = .error place.fault := by
  cases h with
  | opening => rfl
  | @argument front behind split =>
    have front_named : ∀ t ∈ front, t.Named := fun t ht => named.1 t (by simp [split, ht])
    have arguments := readArguments_append front_named []
    rw [List.append_nil, readArguments] at arguments
    simp only [MethodDescriptor.read, arguments]
    rfl
  | @inArgument front behind t part place split cut =>
    have front_named : ∀ t ∈ front, t.Named := fun t ht => named.1 t (by simp [split, ht])
    have failed := cut.read (named.1 t (by simp [split]))
    obtain ⟨tag, tail, rfl, inside⟩ := cut.begun
    have arguments := readArguments_append front_named (tag :: tail)
    rw [readArguments_fault inside failed] at arguments
    simp only [MethodDescriptor.read, arguments]
    rfl
  | returnType =>
    have arguments := readArguments_render named.1 []
    have returned : readReturn [] = .error .ended := by decide
    simp only [MethodDescriptor.read, arguments, returned]
    rfl
  | @inReturn t part place typed cut =>
    have arguments := readArguments_render named.1 part
    have failed := cut.read (named.2 t (by simp [typed]))
    -- Nothing that begins a type is read as the sign for no value.
    have typed_part : part ≠ ['V'] := by
      intro void
      rw [void] at failed
      cases cut <;> cases void
    have returned : readReturn part = .error place.fault := by
      rw [readReturn, if_neg typed_part, failed]
    simp only [MethodDescriptor.read, arguments, returned]

/-- More behind a return type is a trailing text. The sign for no value is no type, so with more
behind it it is refused itself. -/
theorem readReturn_append (named : ∀ t ∈ m.returnType, t.Named) {more : List Char}
    (extended : more ≠ []) :
    readReturn (renderReturn m.returnType ++ more) =
      .error (m.returnType.elim (.unexpectedTag 'V') fun _ => .trailing (String.ofList more)) := by
  cases typed : m.returnType with
  | none =>
    have longer : 'V' :: more ≠ ['V'] := by simpa using extended
    rw [renderReturn, List.singleton_append, readReturn, if_neg longer]
    rfl
  | some t =>
    have first := FieldType.read_render (named t (by simp [typed])) more
    obtain ⟨tag, tail, tagged, -, other⟩ := t.render_tag
    have no_void : t.render ++ more ≠ ['V'] := by
      rw [tagged]
      intro same
      exact other (List.cons.inj same).1
    rw [renderReturn, readReturn, if_neg no_void, first]
    cases more with
    | nil => exact absurd rfl extended
    | cons c more => rfl

theorem read_append (named : m.Named) {more : List Char} (extended : more ≠ []) :
    read (m.render ++ more) =
      .error (m.returnType.elim (.unexpectedTag 'V') fun _ => .trailing (String.ofList more)) := by
  have arguments := readArguments_render named.1 (renderReturn m.returnType ++ more)
  have returned := readReturn_append named.2 extended
  simp only [render, read, List.cons_append, List.append_assoc, arguments, returned]

end Whole

/-- A descriptor with more behind it, or without its end, is refused, and the refusal carries the
whole text. With more behind it the reason is what is behind, or the sign for no value if the
descriptor ends in that. Without its end it was cut at a place of a known kind, and this kind is the
reason. So no descriptor is the start of another. -/
theorem refused_cut_or_extended {text : String} {m : MethodDescriptor}
    (accepted : parse text = .ok m) :
    (∀ more, more ≠ "" →
      (m.returnType ≠ none →
        Refused (text ++ more) ("trailing characters " ++ Text.quoted more)) ∧
      (m.returnType = none → Refused (text ++ more) "unexpected type tag 'V'")) ∧
    (∀ part, (∃ rest, rest ≠ "" ∧ part ++ rest = text) ↔ ∃ place, m.Cut part.toList place) ∧
    (∀ part place, m.Cut part.toList place → Refused part place.reason) ∧
    ∀ more m', parse (text ++ more) = .ok m' → more = "" := by
  obtain ⟨named, written⟩ := read_eq_ok_iff.mp accepted
  have extended (more : String) (filled : more ≠ "") : parse (text ++ more) =
      .error (m.returnType.elim (.unexpectedTag 'V') fun _ => .trailing more) := by
    have longer : more.toList ≠ [] := by simpa using filled
    rw [parse, String.toList_append, written, read_append named longer, String.ofList_toList]
  refine ⟨?_, ?_, ?_, ?_⟩
  · intro more filled
    have refused := refused_of_parse (extended more filled)
    constructor
    · intro valued
      obtain ⟨t, typed⟩ := Option.ne_none_iff_exists'.mp valued
      rwa [typed] at refused
    · intro void
      rwa [void] at refused
  · intro part
    constructor
    · rintro ⟨rest, filled, rfl⟩
      rw [String.toList_append] at written
      exact exists_cut written.symm (by simpa using filled)
    · rintro ⟨place, cut⟩
      obtain ⟨rest, filled, whole⟩ := cut.unfinished
      refine ⟨String.ofList rest, by simpa using filled, ?_⟩
      rw [← String.toList_inj, String.toList_append, String.toList_ofList, written, whole]
  · intro part place cut
    rw [← place.message_fault]
    exact refused_of_parse (cut.read named)
  · intro more m' further
    by_contra filled
    rw [extended more filled] at further
    cases further

def closingName : MethodDescriptor := ⟨[.int, .array (.object "a)V")], some (.array .long)⟩

/-- The closing parenthesis in the name ends no arguments, and the one behind it does. -/
theorem closingName_refused :
    parse "(I[La)V;)[J" = .ok closingName ∧ Refused "(I[La)V" "unterminated class name" ∧
      Refused "(I[La)V;" "missing ')'" ∧ Refused "(I[La)V;)[" "unexpected end of descriptor" ∧
      Refused "(I[La)V;)[J)V" ("trailing characters " ++ Text.quoted ")V") := by
  have named : closingName.Named := by simp [closingName, Named, FieldType.Named]
  have accepted : parse "(I[La)V;)[J" = .ok closingName := read_eq_ok_iff.mpr ⟨named, rfl⟩
  obtain ⟨extended, -, cut, -⟩ := refused_cut_or_extended accepted
  have inName : closingName.Cut "(I[La)V".toList .name :=
    @Cut.inArgument closingName [.int] [] _ _ _ rfl (.inside (.name rfl))
  have closing : closingName.Cut "(I[La)V;".toList .argument :=
    @Cut.argument closingName closingName.arguments [] rfl
  have inReturn : closingName.Cut "(I[La)V;)[".toList .element := .inReturn rfl (.bracket _)
  exact ⟨accepted, cut _ _ inName, cut _ _ closing, cut _ _ inReturn,
    (extended ")V" (by decide)).1 (by decide)⟩

end MethodDescriptor

end MutantSieve
