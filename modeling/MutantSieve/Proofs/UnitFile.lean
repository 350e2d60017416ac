import MutantSieve.Proofs.Decode

/-!
# The contents of unit files

The units of a file come from the elements of one list in its document, each from its own element,
so they stand in the order of the document. The list is the document itself or its member of that
name, which stands in the document once.
-/

set_option autoImplicit false

namespace MutantSieve

namespace Data

/-- The elements that a document holds as units: its own if it is a list, or those of the one member
of a record that has their name. A record without such a member holds none. -/
inductive HoldsUnits : Data → List Data → Prop
  | bare (elements : List Data) : HoldsUnits (.list elements true) elements
  | named {front behind : List (Option String × Data)} (elements : List Data)
      (before : ∀ m ∈ front, m.1 ≠ some "units") (after : ∀ m ∈ behind, m.1 ≠ some "units") :
      HoldsUnits (.record (front ++ (some "units", .list elements true) :: behind) true) elements
  | absent {members : List (Option String × Data)} (others : ∀ m ∈ members, m.1 ≠ some "units") :
      HoldsUnits (.record members true) []

theorem HoldsUnits.cons {members : List (Option String × Data)} {elements : List Data}
    {m : Option String × Data} (other : m.1 ≠ some "units")
    (h : HoldsUnits (.record members true) elements) :
    HoldsUnits (.record (m :: members) true) elements := by
  cases h with
  | named elements before after =>
    exact .named elements (List.forall_mem_cons.mpr ⟨other, before⟩) after
  | absent others => exact .absent (List.forall_mem_cons.mpr ⟨other, others⟩)

end Data

namespace Decode

variable {dialect : Dialect} {ms : List (Option String × Data)} {units : List ClassUnit}

theorem unitsStep_other {name : String} (other : name ≠ "units")
    (state : Option (List ClassUnit)) (d : Data) :
    unitsStep dialect state name d = skip d state := by
  unfold unitsStep
  split
  · exact absurd rfl other
  · rfl

theorem of_members_after {state : Option (List ClassUnit)}
    (h : members (unitsStep dialect) (some units) ms = .ok state) :
    state = some units ∧ ∀ m ∈ ms, m.1 ≠ some "units" := by
  induction ms with
  | nil =>
    cases h
    exact ⟨rfl, by simp⟩
  | cons m rest ih =>
    obtain ⟨name, next, named, taken, others⟩ := of_members_cons h
    by_cases isUnits : name = "units"
    · subst isUnits
      cases taken
    · rw [unitsStep_other isUnits] at taken
      cases of_skip taken
      obtain ⟨kept, none⟩ := ih others
      refine ⟨kept, List.forall_mem_cons.mpr ⟨?_, none⟩⟩
      rw [named]
      exact fun same => isUnits (Option.some.inj same)

theorem of_members_units {state : Option (List ClassUnit)}
    (h : members (unitsStep dialect) none ms = .ok state) :
    ∃ elements, (Data.record ms true).HoldsUnits elements ∧
      List.Forall₂ (fun d u => classUnit dialect d = .ok u) elements (state.getD []) := by
  induction ms with
  | nil =>
    cases h
    exact ⟨[], .absent (by simp), .nil⟩
  | cons m rest ih =>
    obtain ⟨name, next, named, taken, others⟩ := of_members_cons h
    by_cases isUnits : name = "units"
    -- The state changes here once and for all, so the induction hypothesis is of no more use.
    · subst isUnits
      obtain ⟨units, read, rfl⟩ := of_map taken
      obtain ⟨elements, isList, decoded⟩ := of_list read
      obtain ⟨rfl, after⟩ := of_members_after others
      have first : m = (some "units", .list elements true) := Prod.ext named isList
      rw [first]
      exact ⟨elements, @Data.HoldsUnits.named [] rest elements (by simp) after, decoded⟩
    · rw [unitsStep_other isUnits] at taken
      cases of_skip taken
      obtain ⟨elements, holds, decoded⟩ := ih others
      have other : m.1 ≠ some "units" := by
        rw [named]
        exact fun same => isUnits (Option.some.inj same)
      exact ⟨elements, holds.cons other, decoded⟩

theorem of_unitFile {d : Data} (h : unitFile dialect d = .ok units) :
    ∃ elements, d.HoldsUnits elements ∧
      List.Forall₂ (fun d u => classUnit dialect d = .ok u) elements units := by
  cases d with
  | record ms closed =>
    obtain ⟨state, read, rfl⟩ := of_map h
    obtain ⟨rfl, taken⟩ := of_record read
    exact of_members_units taken
  | _ => cases h

end Decode

namespace UnitFormat

def dialect : UnitFormat → Decode.Dialect
  | json => .json
  | toml => .toml

def document? : UnitFormat → String → Option Data
  | json, text =>
    let (d, rest) := Json.read text.toList
    if Json.ends rest then some d else none
  | toml, text => Toml.read .v11 text

def Lists (f : UnitFormat) (text : String) (units : List ClassUnit) : Prop :=
  ∃ document elements, f.document? text = some document ∧ document.HoldsUnits elements ∧
    List.Forall₂ (fun d u => Decode.classUnit f.dialect d = .ok u) elements units

theorem lists_of_parse {f : UnitFormat} {text : String} {units : List ClassUnit}
    (h : f.parse text = .ok units) : f.Lists text units := by
  cases f with
  | json =>
    refine ⟨(Json.read text.toList).1, ?_⟩
    rw [parse, Decode.jsonUnits] at h
    split at h
    · obtain ⟨read, complete⟩ := Decode.of_json h
      obtain ⟨elements, isList, decoded⟩ := Decode.of_list read
      exact ⟨elements, if_pos complete, isList ▸ .bare elements, decoded⟩
    · obtain ⟨read, complete⟩ := Decode.of_json h
      obtain ⟨elements, holds, decoded⟩ := Decode.of_unitFile read
      exact ⟨elements, if_pos complete, holds, decoded⟩
  | toml =>
    rw [parse, Decode.tomlUnits] at h
    cases read : Toml.read .v11 text with
    | none =>
      rw [read] at h
      cases h
    | some document =>
      rw [read] at h
      obtain ⟨elements, holds, decoded⟩ := Decode.of_unitFile h
      exact ⟨document, elements, read, holds, decoded⟩

end UnitFormat

end MutantSieve
