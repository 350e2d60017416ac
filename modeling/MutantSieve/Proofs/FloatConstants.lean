import MutantSieve.Proofs.ClassText
import MutantSieve.Proofs.Json.Writing
import MutantSieve.Proofs.SingleText

/-!
# Floating point constants and their texts

A constant that is loaded is a number of its width. A finite single is read back from its text, so a
class is read back from its text just when its singles are finite and its doubles are read back from
theirs; a number that became infinite when it was rounded has no text that is read again.
-/

set_option autoImplicit false

namespace MutantSieve

open Binary

def Constant.Belongs : Constant → Prop
  | .float x => x.Belongs single
  | _ => True

def Instruction.Belongs : Instruction → Prop
  | .ldc k => k.Belongs
  | _ => True

namespace Decode

section Yields

variable {α β σ : Type} {P : α → Prop} {Q : β → Prop} {decode : Data → Decoded α}
  {dialect : Dialect}

def Yields (decode : Data → Decoded α) (P : α → Prop) : Prop := ∀ d a, decode d = .ok a → P a

theorem Yields.map {f : α → β} (h : ∀ a, P a → Q (f a)) (yields : Yields decode P) :
    Yields (fun d => (decode d).map f) Q := by
  intro d b decoded
  obtain ⟨a, read, rfl⟩ := of_map decoded
  exact h a (yields d a read)

theorem Yields.list (yields : Yields decode P) :
    Yields (Decode.list decode) fun as => ∀ a ∈ as, P a := by
  intro d as decoded a inside
  obtain ⟨ds, -, each⟩ := of_list decoded
  clear decoded
  induction each with
  | nil => cases inside
  | @cons d b ds bs first others ih =>
    rcases List.mem_cons.mp inside with rfl | inside
    · exact yields d a first
    · exact ih inside

theorem Yields.fill {put : Option α → σ} {d : Data} {before : Option α} {s : σ}
    (yields : Yields decode P)
    (h : (do return put (← Decode.fill decode d before)) = Except.ok (ε := Refusal) s) :
    ∃ a, P a ∧ s = put (some a) := by
  obtain ⟨a, read, same⟩ := filled h
  exact ⟨a, yields d a read, same⟩

theorem Yields.next {ds rest : List Data} {a : α} (yields : Yields decode P)
    (h : Decode.next decode ds = .ok (a, rest)) : P a := by
  cases ds with
  | nil => cases h
  | cons d ds =>
    obtain ⟨b, read, same⟩ := of_map h
    cases same
    exact yields d a read

theorem Yields.nextOr {ds rest : List Data} {a b : α} {closed : Bool} (yields : Yields decode P)
    (absent : P b) (h : Decode.nextOr b closed decode ds = .ok (a, rest)) : P a := by
  cases ds with
  | nil =>
    rw [Decode.nextOr, ended] at h
    split at h
    · cases h
      exact absent
    · cases h
  | cons d ds =>
    obtain ⟨c, read, same⟩ := of_map h
    cases same
    exact yields d a read

end Yields

section Loaded

variable {dialect : Dialect}

theorem yields_float {f : Format} (wide : 0 < f.places) (ranged : f.least < f.most) :
    Yields (float f) (Binary.Belongs f) := by
  intro d x decoded
  unfold float at decoded
  split at decoded
  · split at decoded
    · cases decoded
      exact belongs_round wide ranged _ _ (by decide)
    · cases decoded
  · cases decoded
    exact belongs_convert wide ranged _
  · cases decoded

theorem yields_types : ∀ t ∈ constantTypes, Yields t.2 Constant.Belongs := by
  have others : ∀ {α : Type} {decode : Data → Decoded α} {make : α → Constant},
      (∀ a, (make a).Belongs) → Yields (fun d => (decode d).map make) Constant.Belongs := by
    intro α decode make h d k decoded
    obtain ⟨a, -, rfl⟩ := of_map decoded
    exact h a
  intro t listed
  simp only [constantTypes, List.mem_cons, List.not_mem_nil, or_false] at listed
  rcases listed with rfl | rfl | rfl | rfl | rfl | rfl
  · exact others fun _ => trivial
  · exact others fun _ => trivial
  · exact (yields_float (by decide) (by decide)).map fun _ h => h
  · exact others fun _ => trivial
  · exact others fun _ => trivial
  · exact others fun _ => trivial

theorem yields_typeNamed {name : String} {decode : Data → Decoded Constant}
    (h : typeNamed name = .ok decode) : Yields decode Constant.Belongs := by
  have found := of_present h
  obtain ⟨before, after, split, -⟩ := List.lookup_eq_some_iff.mp found
  exact yields_types (name, decode) (by rw [split]; simp)

theorem yields_memberType : Yields memberType fun decode => Yields decode Constant.Belongs := by
  intro d decode decoded
  unfold memberType at decoded
  split at decoded
  · exact yields_typeNamed decoded
  · exact yields_typeNamed decoded
  · exact yields_typeNamed decoded
  · cases decoded

theorem yields_itemType :
    Yields (itemType dialect) fun decode => Yields decode Constant.Belongs := by
  intro d decode decoded
  unfold itemType at decoded
  split at decoded
  · exact yields_typeNamed decoded
  · split at decoded
    · obtain ⟨t, listed, rfl⟩ := Option.map_eq_some_iff.mp (of_present decoded)
      exact yields_types t (List.mem_of_getElem? listed)
    · cases decoded
  · cases decoded

theorem yields_constant : Yields (constant dialect) Constant.Belongs := by
  intro d k decoded
  unfold constant at decoded
  split at decoded
  · obtain ⟨f, taken, rest⟩ := of_bind decoded
    obtain ⟨decode, type, rest⟩ := of_bind rest
    obtain ⟨d, -, read⟩ := of_bind rest
    have typed : ∀ decode, f.type = some decode → Yields decode Constant.Belongs := by
      refine members_invariant (P := fun f => ∀ decode, f.type = some decode →
        Yields decode Constant.Belongs) ?_ (members_of_record taken) (fun _ h => by cases h)
      intro s name d s' step before
      unfold ConstantFields.step at step
      split at step
      · obtain ⟨decode, yields, rfl⟩ := yields_memberType.fill step
        rintro _ ⟨⟩
        exact yields
      · obtain ⟨a, -, rfl⟩ := filled step
        exact before
      · cases step
        exact before
    exact typed decode (of_present type) d k read
  · obtain ⟨⟨decode, ds⟩, first, rest⟩ := of_bind decoded
    obtain ⟨⟨c, ds⟩, second, rest⟩ := of_bind rest
    obtain ⟨-, -, same⟩ := of_bind rest
    cases same
    exact (yields_itemType.next first).next second
  · cases decoded

theorem take_belongs {f f' : InstructionFields} {name : String} {d : Data}
    (step : f.take dialect name d = .ok f') (before : ∀ k, f.constant = some k → k.Belongs) :
    ∀ k, f'.constant = some k → k.Belongs := by
  unfold InstructionFields.take at step
  split at step
  case h_3 =>
    obtain ⟨k, belongs, rfl⟩ := yields_constant.fill step
    rintro _ ⟨⟩
    exact belongs
  case h_14 =>
    cases step
    exact before
  all_goals
    obtain ⟨a, -, rfl⟩ := filled step
    exact before

theorem build_belongs {f : InstructionFields} {kind : String} {i : Instruction}
    (built : f.build kind = some i) (fields : ∀ k, f.constant = some k → k.Belongs) :
    i.Belongs := by
  cases i with
  | ldc k =>
    apply fields
    unfold InstructionFields.build at built
    split at built <;> simp_all [Option.bind_eq_some_iff]
  | _ => trivial

theorem listedFields_belongs {names : List String} {f f' : InstructionFields} {ds rest : List Data}
    (listed : listedFields dialect names f ds = .ok (f', rest))
    (before : ∀ k, f.constant = some k → k.Belongs) : ∀ k, f'.constant = some k → k.Belongs := by
  induction ds generalizing names f with
  | nil =>
    rw [listedFields] at listed
    cases listed
    exact before
  | cons d ds ih =>
    cases names with
    | nil =>
      rw [listedFields] at listed
      cases listed
      exact before
    | cons name names =>
      rw [listedFields] at listed
      cases taken : f.take dialect name d with
      | error e =>
        rw [taken] at listed
        cases listed
      | ok next =>
        rw [taken] at listed
        exact ih listed (take_belongs taken before)

theorem yields_instruction : Yields (instruction dialect) Instruction.Belongs := by
  intro d i decoded
  unfold instruction at decoded
  split at decoded
  · cases decoded
  split at decoded
  · obtain ⟨kind, -, rest⟩ := of_bind decoded
    obtain ⟨names, -, rest⟩ := of_bind rest
    obtain ⟨f, taken, built⟩ := of_bind rest
    exact build_belongs (of_present built) (members_invariant
      (P := fun f => ∀ k, f.constant = some k → k.Belongs)
      (fun s name d s' step => take_belongs step) taken (fun _ h => by cases h))
  · obtain ⟨names, -, rest⟩ := of_bind decoded
    obtain ⟨⟨f, ds⟩, taken, rest⟩ := of_bind rest
    obtain ⟨i', built, rest⟩ := of_bind rest
    obtain ⟨-, -, same⟩ := of_bind rest
    cases same
    exact build_belongs (of_present built) (listedFields_belongs taken (fun _ h => by cases h))
  · cases decoded

theorem yields_declaration :
    Yields (declaration dialect) fun m => ∀ i ∈ m.instructions, i.Belongs := by
  intro d m decoded
  unfold declaration at decoded
  split at decoded
  · obtain ⟨f, taken, rest⟩ := of_bind decoded
    obtain ⟨name, -, rest⟩ := of_bind rest
    obtain ⟨descriptor, -, same⟩ := of_bind rest
    cases same
    have fields : ∀ is, f.instructions = some is → ∀ i ∈ is, i.Belongs := by
      refine members_invariant (P := fun f => ∀ is, f.instructions = some is →
        ∀ i ∈ is, i.Belongs) ?_ (members_of_record taken) (fun _ h => by cases h)
      intro s name d s' step before
      unfold MethodFields.step at step
      split at step
      · obtain ⟨a, -, rfl⟩ := filled step
        exact before
      · obtain ⟨a, -, rfl⟩ := filled step
        exact before
      · obtain ⟨is, belong, rfl⟩ := yields_instruction.list.fill step
        rintro _ ⟨⟩
        exact belong
      · rw [of_skip step]
        exact before
    intro i inside
    cases present : f.instructions with
    | none => simp [present] at inside
    | some is =>
      rw [present] at inside
      exact fields is present i inside
  · obtain ⟨⟨name, ds⟩, -, rest⟩ := of_bind decoded
    obtain ⟨⟨descriptor, ds⟩, -, rest⟩ := of_bind rest
    obtain ⟨⟨is, ds⟩, third, rest⟩ := of_bind rest
    obtain ⟨-, -, same⟩ := of_bind rest
    cases same
    exact yields_instruction.list.nextOr (by simp) third
  · cases decoded

theorem yields_classForm :
    Yields (classForm dialect) fun form => ∀ m ∈ form.methods, ∀ i ∈ m.instructions, i.Belongs := by
  intro d form decoded
  unfold classForm at decoded
  split at decoded
  · obtain ⟨f, taken, rest⟩ := of_bind decoded
    obtain ⟨name, -, same⟩ := of_bind rest
    cases same
    have fields : ∀ ms, f.methods = some ms → ∀ m ∈ ms, ∀ i ∈ m.instructions, i.Belongs := by
      refine members_invariant (P := fun f => ∀ ms, f.methods = some ms →
        ∀ m ∈ ms, ∀ i ∈ m.instructions, i.Belongs) ?_ (members_of_record taken)
        (fun _ h => by cases h)
      intro s name d s' step before
      unfold ClassFields.step at step
      split at step
      · obtain ⟨a, -, rfl⟩ := filled step
        exact before
      · obtain ⟨ms, belong, rfl⟩ := yields_declaration.list.fill step
        rintro _ ⟨⟩
        exact belong
      · rw [of_skip step]
        exact before
    intro m inside
    cases present : f.methods with
    | none => simp [present] at inside
    | some ms =>
      rw [present] at inside
      exact fields ms present m inside
  · obtain ⟨⟨name, ds⟩, -, rest⟩ := of_bind decoded
    obtain ⟨⟨ms, ds⟩, second, rest⟩ := of_bind rest
    obtain ⟨-, -, same⟩ := of_bind rest
    cases same
    exact yields_declaration.list.nextOr (by simp) second
  · cases decoded

theorem yields_classTree :
    Yields (classTree dialect) fun c => ∀ m ∈ c.methods, ∀ i ∈ m.instructions, i.Belongs := by
  intro d c decoded m inside i held
  unfold classTree at decoded
  cases shaped : classForm dialect d with
  | error e =>
    rw [shaped] at decoded
    cases decoded
  | ok form =>
    rw [shaped] at decoded
    simp only at decoded
    cases built : ClassTree.new form.name form.located with
    | error e =>
      rw [built] at decoded
      cases decoded
    | ok tree =>
      rw [built] at decoded
      cases decoded
      rw [(ClassTree.new_eq_ok_iff.mp built).2, ClassForm.located] at inside
      obtain ⟨declared, listed, rfl⟩ := List.mem_map.mp inside
      exact yields_classForm d form shaped declared listed i held

end Loaded

end Decode

end MutantSieve
