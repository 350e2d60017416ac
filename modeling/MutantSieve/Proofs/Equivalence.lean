import MutantSieve.Proofs.ReturnedValue

/-!
# Which dropped mutations are equivalent

A mutation may be dropped when the value returned is known and is the one that the mutator
substitutes. The families go by the name of a call of `valueOf` and not by its owner, so this holds
exactly where such a call is the boxing method of the right wrapper. Nothing else goes wrong with
values of the type that is returned.
-/

set_option autoImplicit false

namespace MutantSieve

theorem Call.EmptyFactory.not_valueOf {call : Call} (h : call.EmptyFactory) :
    ¬ call.NamedValueOf := by
  intro named
  have listed := h.1
  rw [named] at listed
  simp [emptyFactories] at listed

theorem Call.EmptyFactory.collection {call : Call} (h : call.EmptyFactory) :
    emptyType call.owner call.name ∈ emptyCollections := by
  have listed := h.1
  simp only [emptyFactories, List.mem_cons, Prod.mk.injEq, List.not_mem_nil, or_false] at listed
  rcases listed with named | named | named | named | named <;>
    rw [named.1, named.2] <;> decide

section Returned

variable {body : List Instruction} {i : Nat}

theorem returns_constant {x : Instruction} {v : Value} (before : Before body i 1 x)
    (pushes : x.pushed? = some v) (v' : Value) : Returns body i v' ↔ v' = v := by
  constructor
  · intro h
    cases h with
    | constant before' pushes' =>
      rw [before'.unique before, pushes] at pushes'
      exact (Option.some.inj pushes').symm
    | boxed before' =>
      rw [before.unique before'] at pushes
      cases pushes
    | empty before' =>
      rw [before.unique before'] at pushes
      cases pushes
  · rintro rfl
    exact Returns.constant before pushes

theorem returns_valueOf {call : Call} {x : Instruction} {v : Value}
    (before : Before body i 1 (.method call)) (named : call.NamedValueOf)
    (below : Before body i 2 x) (pushes : x.pushed? = some v) (v' : Value) :
    Returns body i v' ↔ ∃ w : Wrapper, w.Boxes call ∧ v' = .boxed w v := by
  constructor
  · intro h
    cases h with
    | constant before' pushes' =>
      rw [before'.unique before] at pushes'
      cases pushes'
    | @boxed call' w y u before' boxes below' pushes' =>
      cases before'.unique before
      rw [below'.unique below, pushes] at pushes'
      exact ⟨w, boxes, by rw [Option.some.inj pushes']⟩
    | empty before' factory =>
      cases before'.unique before
      exact absurd named factory.not_valueOf
  · rintro ⟨w, boxes, rfl⟩
    exact Returns.boxed before boxes below pushes

theorem returns_factory {call : Call} (before : Before body i 1 (.method call))
    (factory : call.EmptyFactory) (v' : Value) :
    Returns body i v' ↔ v' = .empty (emptyType call.owner call.name) := by
  constructor
  · intro h
    cases h with
    | constant before' pushes' =>
      rw [before'.unique before] at pushes'
      cases pushes'
    | boxed before' boxes =>
      cases before'.unique before
      exact absurd boxes.2.2.1 factory.not_valueOf
    | empty before' =>
      cases before'.unique before
      rfl
  · rintro rfl
    exact Returns.empty before factory

end Returned

/-! ## What the mutators substitute -/

theorem FieldType.truth_eq_some_iff (n : Int32) (t : FieldType) (v : Value) :
    t.truth? n = some v ↔
      t = .boolean ∧ v = .constant (.int n) ∨
        t = .object Wrapper.boolean.owner ∧ v = .boxed .boolean (.constant (.int n)) := by
  cases t with
  | object name =>
    by_cases boxes : name = Wrapper.boolean.owner
    · simp [truth?, boxes, eq_comm]
    · simp [truth?, boxes]
  | boolean => simp [truth?, eq_comm]
  | _ => simp [truth?]

theorem emptyValue_owner (w : Wrapper) : emptyValue? w.owner = w.content.zero?.map (.boxed w) := by
  cases w <;> rfl

theorem emptyValue_collection {name : String} (h : name ∈ emptyCollections) :
    emptyValue? name = some (.empty name) := by
  have collection : name ≠ "java/lang/String" := by
    rintro rfl
    revert h
    decide
  rw [emptyValue?, if_neg collection, if_pos h]

theorem emptyValue_boxed {name : String} {w : Wrapper} {v : Value}
    (h : emptyValue? name = some (.boxed w v)) : w.content.zero? = some v := by
  unfold emptyValue? at h
  split at h
  · cases h
  split at h
  · cases h
  split at h
  · obtain ⟨z, zero, same⟩ := Option.map_eq_some_iff.mp h
    cases same
    exact zero
  · cases h

namespace Mutator

theorem substitutes_truth_iff (n : Int32) (v : Value) : (∃ t : FieldType, t.truth? n = some v) ↔
    v = .constant (.int n) ∨ v = .boxed .boolean (.constant (.int n)) := by
  simp only [FieldType.truth_eq_some_iff]
  constructor
  · rintro ⟨t, ⟨-, rfl⟩ | ⟨-, rfl⟩⟩
    · exact Or.inl rfl
    · exact Or.inr rfl
  · rintro (rfl | rfl)
    · exact ⟨_, Or.inl ⟨rfl, rfl⟩⟩
    · exact ⟨_, Or.inr ⟨rfl, rfl⟩⟩

theorem substitutes_boxed_iff (w : Wrapper) (v : Value) :
    emptyReturns.Substitutes (.boxed w v) ↔ w.content.zero? = some v := by
  constructor
  · rintro ⟨t, replaced⟩
    cases t with
    | object name => exact emptyValue_boxed replaced
    | _ => cases replaced
  · intro zero
    refine ⟨.object w.owner, ?_⟩
    rw [replacement?, emptyValue_owner, zero]
    rfl

theorem substitutes_zero {o : Opcode} (listed : o ∈ Opcode.zeros) {v : Value}
    (pushes : o.pushed? = some v) : primitiveReturns.Substitutes v := by
  rcases Opcode.mem_zeros.mp listed with rfl | rfl | rfl | rfl
  · exact ⟨.int, pushes⟩
  · exact ⟨.long, pushes⟩
  · exact ⟨.float, pushes⟩
  · exact ⟨.double, pushes⟩

/-- When the instructions before place `i` show that the returned value is one that the mutator
substitutes, given that some family claims the mutation. -/
def Proven (body : List Instruction) (i : Nat) : Mutator → Prop
  | trueReturns => ∀ call, Before body i 1 (.method call) → Wrapper.boolean.Boxes call
  | falseReturns =>
    Before body i 1 (.plain .iconst0) ∨
      CallBefore body i Wrapper.boolean.Boxes ∧ Before body i 2 (.plain .iconst0)
  | emptyReturns =>
    ∀ call, Before body i 1 (.method call) → call.NamedValueOf →
      ∃ w : Wrapper, w.Boxes call ∧ ∃ x, Before body i 2 x ∧ x.pushed? = w.content.zero?
  | _ => True

end Mutator

theorem Opcode.pushed_primitive (o : Opcode) (w : Wrapper) (v : Value) :
    o.pushed? ≠ some (.boxed w v) := by
  cases o <;> simp [pushed?]

theorem Opcode.zero_pushes {o : Opcode} (listed : o ∈ zeros) : ∃ v, o.pushed? = some v := by
  rcases Opcode.mem_zeros.mp listed with rfl | rfl | rfl | rfl <;> exact ⟨_, rfl⟩

theorem Opcode.zero_of_type {o : Opcode} (listed : o ∈ zeros) {v : Value}
    (pushes : o.pushed? = some v) {t : FieldType} (typed : v.HasType t) : t.zero? = some v := by
  rcases Opcode.mem_zeros.mp listed with rfl | rfl | rfl | rfl <;> cases pushes
  · simp only [Value.hasType_int, List.mem_cons, List.not_mem_nil, or_false] at typed
    rcases typed with rfl | rfl | rfl | rfl | rfl <;> rfl
  all_goals
    cases typed
    rfl

theorem Opcode.zero_int_iff {o : Opcode} (listed : o ∈ zeros) :
    o.pushed? = some (.constant (.int 0)) ↔ o = iconst0 := by
  rcases Opcode.mem_zeros.mp listed with rfl | rfl | rfl | rfl <;> simp [pushed?]

section Claimed

variable {body : List Instruction} {i : Nat}

theorem callBefore_method {call : Call} (before : Before body i 1 (.method call))
    (P : Call → Prop) : CallBefore body i P ↔ P call := by
  constructor
  · rintro ⟨call', before', holds⟩
    cases before.unique before'
    exact holds
  · intro holds
    exact ⟨call, before, holds⟩

theorem no_callBefore {x : Instruction} (before : Before body i 1 x)
    (h : ∀ call, x ≠ .method call) (P : Call → Prop) : ¬ CallBefore body i P := by
  rintro ⟨call, before', -⟩
  exact h call (before.unique before')

theorem proven_zero {u : Mutator} (family : u = .primitiveReturns ∨ u = .falseReturns)
    {o : Opcode} (listed : o ∈ Opcode.zeros) (before : Before body i 1 (.plain o)) :
    (∃ v, Returns body i v ∧ u.Substitutes v) ↔ u.Proven body i := by
  obtain ⟨v, pushes⟩ := Opcode.zero_pushes listed
  simp only [returns_constant before pushes, exists_eq_left]
  rcases family with rfl | rfl
  · simp only [Mutator.Proven, iff_true]
    exact Mutator.substitutes_zero listed pushes
  · have none_called := no_callBefore before (fun _ => Instruction.noConfusion)
    have plain : Before body i 1 (.plain .iconst0) ↔ o = .iconst0 := by
      constructor
      · intro before'
        cases before.unique before'
        rfl
      · rintro rfl
        exact before
    have primitive : ∀ w u', v ≠ .boxed w u' := by
      rintro w u' rfl
      exact Opcode.pushed_primitive o w u' pushes
    rw [Mutator.Proven, plain, ← Opcode.zero_int_iff listed, pushes]
    simp [Mutator.Substitutes, Mutator.replacement?, Mutator.substitutes_truth_iff, primitive,
      none_called]

theorem proven_one (before : Before body i 1 (.plain .iconst1)) :
    (∃ v, Returns body i v ∧ Mutator.trueReturns.Substitutes v) ↔
      Mutator.trueReturns.Proven body i := by
  have known : Returns body i (.constant (.int 1)) := Returns.constant before rfl
  constructor
  · intro _ call called
    cases before.unique called
  · intro _
    exact ⟨_, known, (Mutator.substitutes_truth_iff 1 _).mpr (Or.inl rfl)⟩

theorem proven_boxed_one {call : Call} (before : Before body i 1 (.method call))
    (named : call.NamedValueOf) (below : Before body i 2 (.plain .iconst1)) :
    (∃ v, Returns body i v ∧ Mutator.trueReturns.Substitutes v) ↔
      Mutator.trueReturns.Proven body i := by
  simp only [returns_valueOf before named below rfl]
  constructor
  · rintro ⟨v, ⟨w, boxes, rfl⟩, substituted⟩ call' before'
    cases before.unique before'
    rcases (Mutator.substitutes_truth_iff 1 _).mp substituted with same | same
    · cases same
    · cases same
      exact boxes
  · intro proven
    exact ⟨_, ⟨.boolean, proven call before, rfl⟩,
      (Mutator.substitutes_truth_iff 1 _).mpr (Or.inr rfl)⟩

theorem proven_boxed_zero {u : Mutator} (family : u = .emptyReturns ∨ u = .falseReturns)
    {call : Call} (before : Before body i 1 (.method call)) (named : call.NamedValueOf)
    {o : Opcode} (listed : o ∈ Opcode.zeros) (below : Before body i 2 (.plain o)) :
    (∃ v, Returns body i v ∧ u.Substitutes v) ↔ u.Proven body i := by
  obtain ⟨v, pushes⟩ := Opcode.zero_pushes listed
  simp only [returns_valueOf before named below pushes]
  rcases family with rfl | rfl
  · constructor
    · rintro ⟨_, ⟨w, boxes, rfl⟩, substituted⟩ call' before' -
      cases before.unique before'
      have zero := (Mutator.substitutes_boxed_iff w v).mp substituted
      exact ⟨w, boxes, _, below, pushes.trans zero.symm⟩
    · intro proven
      obtain ⟨w, boxes, x, below', zero⟩ := proven call before named
      rw [below'.unique below] at zero
      exact ⟨_, ⟨w, boxes, rfl⟩,
        (Mutator.substitutes_boxed_iff w v).mpr (zero.symm.trans pushes)⟩
  · constructor
    · rintro ⟨_, ⟨w, boxes, rfl⟩, substituted⟩
      rcases (Mutator.substitutes_truth_iff 0 _).mp substituted with same | same
      · cases same
      · cases same
        refine Or.inr ⟨⟨call, before, boxes⟩, ?_⟩
        exact (Opcode.zero_int_iff listed).mp pushes ▸ below
    · rintro (plain | ⟨boxes, plain⟩)
      · cases before.unique plain
      · cases below.unique plain
        cases pushes
        exact ⟨_, ⟨.boolean, (callBefore_method before _).mp boxes, rfl⟩,
          (Mutator.substitutes_truth_iff 0 _).mpr (Or.inr rfl)⟩

theorem not_proven_false {v : Value} (known : ∀ v', Returns body i v' ↔ v' = v)
    (other : v ≠ .constant (.int 0) ∧ v ≠ .boxed .boolean (.constant (.int 0)))
    (unproven : ¬ Mutator.falseReturns.Proven body i) :
    (∃ v, Returns body i v ∧ Mutator.falseReturns.Substitutes v) ↔
      Mutator.falseReturns.Proven body i := by
  simp only [known, exists_eq_left, unproven, iff_false]
  intro substituted
  rcases (Mutator.substitutes_truth_iff 0 v).mp substituted with same | same
  · exact other.1 same
  · exact other.2 same

theorem proven_text {u : Mutator} (family : u = .emptyReturns ∨ u = .falseReturns)
    (before : Before body i 1 (.ldc (.string ""))) :
    (∃ v, Returns body i v ∧ u.Substitutes v) ↔ u.Proven body i := by
  have known := returns_constant before rfl
  rcases family with rfl | rfl
  · constructor
    · rintro - call called
      cases before.unique called
    · intro _
      exact ⟨_, (known _).mpr rfl, .object "java/lang/String", rfl⟩
  · refine not_proven_false known ⟨by simp, by simp⟩ ?_
    rintro (plain | ⟨⟨call, called, -⟩, -⟩)
    · cases before.unique plain
    · cases before.unique called

theorem proven_factory {u : Mutator} (family : u = .emptyReturns ∨ u = .falseReturns)
    {call : Call} (before : Before body i 1 (.method call)) (factory : call.EmptyFactory) :
    (∃ v, Returns body i v ∧ u.Substitutes v) ↔ u.Proven body i := by
  have known := returns_factory before factory
  rcases family with rfl | rfl
  · constructor
    · rintro - call' called named
      cases before.unique called
      exact absurd named factory.not_valueOf
    · intro _
      exact ⟨_, (known _).mpr rfl, .object _, emptyValue_collection factory.collection⟩
  · refine not_proven_false known ⟨by simp, by simp⟩ ?_
    rintro (plain | ⟨⟨call', called, boxes⟩, -⟩)
    · cases before.unique plain
    · cases before.unique called
      exact factory.not_valueOf boxes.2.2.1

inductive Produced (body : List Instruction) (i : Nat) : Mutator → Prop
  | zero {u : Mutator} {o : Opcode} (family : u = .primitiveReturns ∨ u = .falseReturns)
      (listed : o ∈ Opcode.zeros) (before : Before body i 1 (.plain o)) : Produced body i u
  | one (before : Before body i 1 (.plain .iconst1)) : Produced body i .trueReturns
  | boxedOne {call : Call} (before : Before body i 1 (.method call)) (named : call.NamedValueOf)
      (below : Before body i 2 (.plain .iconst1)) : Produced body i .trueReturns
  | null (before : Before body i 1 (.plain .aconstNull)) : Produced body i .nullReturns
  | boxedZero {u : Mutator} {call : Call} {o : Opcode}
      (family : u = .emptyReturns ∨ u = .falseReturns) (before : Before body i 1 (.method call))
      (named : call.NamedValueOf) (listed : o ∈ Opcode.zeros) (below : Before body i 2 (.plain o)) :
      Produced body i u
  | text {u : Mutator} (family : u = .emptyReturns ∨ u = .falseReturns)
      (before : Before body i 1 (.ldc (.string ""))) : Produced body i u
  | factory {u : Mutator} {call : Call} (family : u = .emptyReturns ∨ u = .falseReturns)
      (before : Before body i 1 (.method call)) (factory : call.EmptyFactory) : Produced body i u

theorem Pattern.Claims.produced (fits : ∀ x ∈ body, x.fits = true) {u : Mutator} {p : Pattern}
    (h : p.Claims body i u) : Produced body i u := by
  cases p with
  | primitiveZero =>
    obtain ⟨family, o, listed, carried⟩ := h
    exact Produced.zero family listed (carried.plain fits (Opcode.zeros_alone o listed))
  | hardcodedTrue =>
    obtain ⟨rfl, carried | ⟨carried, call, before, named⟩⟩ := h
    · exact Produced.one (carried.plain fits (by decide))
    · exact Produced.boxedOne before named (carried.plain fits (by decide))
  | nullReturn =>
    obtain ⟨rfl, carried⟩ := h
    exact Produced.null (carried.plain fits (by decide))
  | emptyReturn =>
    obtain ⟨family, shape⟩ := h
    rcases shape with ⟨⟨call, before, named⟩, o, listed, carried⟩ | before | ⟨call, before, factory⟩
    · exact Produced.boxedZero family before named listed
        (carried.plain fits (Opcode.zeros_alone o listed))
    · exact Produced.text family before
    · exact Produced.factory family before factory

/-- A call of `valueOf` that is the boxing method of no wrapper. -/
def Call.Foreign (call : Call) : Prop := call.NamedValueOf ∧ ∀ w : Wrapper, ¬ w.Boxes call

theorem known_valueOf {call : Call} {x : Instruction} {v : Value}
    (before : Before body i 1 (.method call)) (named : call.NamedValueOf)
    (below : Before body i 2 x) (pushes : x.pushed? = some v) :
    (∃ v, Returns body i v) ↔ ¬ CallBefore body i Call.Foreign := by
  simp only [returns_valueOf before named below pushes, callBefore_method before, Call.Foreign]
  constructor
  · rintro ⟨_, w, boxes, -⟩ ⟨-, foreign⟩
    exact foreign w boxes
  · intro own
    by_contra unknown
    exact own ⟨named, fun w boxes => unknown ⟨_, w, boxes, rfl⟩⟩

theorem known_constant {x : Instruction} {v : Value} (before : Before body i 1 x)
    (pushes : x.pushed? = some v) :
    (∃ v, Returns body i v) ↔ ¬ CallBefore body i Call.Foreign := by
  have no_call := no_callBefore before (by rintro call rfl; cases pushes) Call.Foreign
  exact iff_of_true ⟨v, Returns.constant before pushes⟩ no_call

theorem Produced.known_iff {u : Mutator} (h : Produced body i u) :
    (∃ v, Returns body i v) ↔ ¬ CallBefore body i Call.Foreign := by
  cases h with
  | zero _ listed before =>
    obtain ⟨v, pushes⟩ := Opcode.zero_pushes listed
    exact known_constant before pushes
  | one before => exact known_constant before rfl
  | boxedOne before named below => exact known_valueOf before named below rfl
  | null before => exact known_constant before rfl
  | boxedZero _ before named listed below =>
    obtain ⟨v, pushes⟩ := Opcode.zero_pushes listed
    exact known_valueOf before named below pushes
  | text _ before => exact known_constant before rfl
  | factory _ before factory =>
    refine iff_of_true ⟨_, Returns.empty before factory⟩ ?_
    rw [callBefore_method before]
    exact fun foreign => factory.not_valueOf foreign.1

theorem Produced.proven_iff {u : Mutator} (h : Produced body i u) :
    (∃ v, Returns body i v ∧ u.Substitutes v) ↔ u.Proven body i := by
  cases h with
  | zero family listed before => exact proven_zero family listed before
  | one before => exact proven_one before
  | boxedOne before named below => exact proven_boxed_one before named below
  | null before =>
    exact iff_of_true ⟨.null, Returns.constant before rfl, .object "", rfl⟩ trivial
  | boxedZero family before named listed below =>
    exact proven_boxed_zero family before named listed below
  | text family before => exact proven_text family before
  | factory family before factory => exact proven_factory family before factory

theorem truth_of_boxed {n : Int32} {w : Wrapper} {v r : Value} {t : FieldType}
    (typed : (Value.boxed w v).HasType t) (replaces : t.truth? n = some r) :
    w = .boolean ∧ v.HasType .boolean ∧ r = .boxed .boolean (.constant (.int n)) := by
  obtain ⟨rfl, content⟩ := typed
  rcases (FieldType.truth_eq_some_iff n _ r).mp replaces with ⟨same, -⟩ | ⟨same, rfl⟩
  · cases same
  · cases Wrapper.owner_injective (FieldType.object.inj same)
    exact ⟨rfl, content, rfl⟩

theorem Produced.replaced {u : Mutator} (h : Produced body i u) {v r : Value} {t : FieldType}
    (returns : Returns body i v) (typed : v.HasType t) (replaces : u.replacement? t = some r) :
    v = r := by
  -- The mutator that returns `false` is of two families, but changes truth values only.
  cases h with
  | zero family listed before =>
    obtain ⟨z, pushes⟩ := Opcode.zero_pushes listed
    cases (returns_constant before pushes v).mp returns
    have zero := Opcode.zero_of_type listed pushes typed
    rcases family with rfl | rfl
    · exact Option.some.inj (zero.symm.trans replaces)
    · rcases (FieldType.truth_eq_some_iff 0 t r).mp replaces with ⟨rfl, rfl⟩ | ⟨rfl, -⟩
      · exact (Option.some.inj zero).symm
      · cases zero
  | one before =>
    cases (returns_constant before rfl v).mp returns
    rcases (FieldType.truth_eq_some_iff 1 t r).mp replaces with ⟨-, rfl⟩ | ⟨rfl, -⟩
    · rfl
    · simp [Value.hasType_int] at typed
  | boxedOne before named below =>
    obtain ⟨w, -, rfl⟩ := (returns_valueOf before named below rfl v).mp returns
    obtain ⟨rfl, -, rfl⟩ := truth_of_boxed typed replaces
    rfl
  | null before =>
    cases (returns_constant before rfl v).mp returns
    cases t <;> cases replaces <;> rfl
  | boxedZero family before named listed below =>
    obtain ⟨z, pushes⟩ := Opcode.zero_pushes listed
    obtain ⟨w, -, rfl⟩ := (returns_valueOf before named below pushes v).mp returns
    rcases family with rfl | rfl
    · obtain ⟨rfl, content⟩ := typed
      have zero := Opcode.zero_of_type listed pushes content
      rw [Mutator.replacement?, emptyValue_owner, zero] at replaces
      exact Option.some.inj replaces
    · obtain ⟨rfl, content, rfl⟩ := truth_of_boxed typed replaces
      rw [← Option.some.inj (Opcode.zero_of_type listed pushes content)]
  | text family before =>
    cases (returns_constant before rfl v).mp returns
    cases typed
    rcases family with rfl | rfl
    · exact Option.some.inj replaces
    · simp [Mutator.replacement?, FieldType.truth?, Wrapper.owner] at replaces
  | factory family before factory =>
    cases (returns_factory before factory v).mp returns
    cases typed
    rcases family with rfl | rfl
    · rw [Mutator.replacement?, emptyValue_collection factory.collection] at replaces
      exact Option.some.inj replaces
    · rw [Mutator.replacement?, FieldType.truth_eq_some_iff] at replaces
      rcases replaces with ⟨same, -⟩ | ⟨same, -⟩
      · cases same
      · have listed := factory.collection
        rw [FieldType.object.inj same] at listed
        exact absurd listed (by decide)

end Claimed

/-- Exactly when dropping a mutation is right. The returned value is known unless a `valueOf` that
boxes nothing precedes; it is known to be one that the mutator substitutes exactly where the body
proves it; and where it is known and of the type that the method returns, it is the very value that
the mutator puts in the place of values of this type. -/
theorem filtered_value_iff (c : ClassTree) (m : Mutation) (f : Method) (hf : f ∈ c.methods)
    (place : f.location = m.id.location) (name : String)
    (filtered : (equivalentReturns.filteredBy c m).result = .ok (some name)) :
    ((∃ v, Returns f.instructions m.id.index.toNat v) ↔
      ¬ CallBefore f.instructions m.id.index.toNat Call.Foreign) ∧
    ((∃ v, Returns f.instructions m.id.index.toNat v ∧ m.id.mutator.Substitutes v) ↔
      m.id.mutator.Proven f.instructions m.id.index.toNat) ∧
    ∀ v t r, Returns f.instructions m.id.index.toNat v → v.HasType t →
      m.id.mutator.replacement? t = some r → v = r := by
  obtain ⟨found, verdict, claims⟩ := verdict_declared hf place
  rw [Interceptor.verdictOn, filtered] at verdict
  cases found with
  | none => cases verdict
  | some p =>
    have produced := ((claims p).mp rfl).produced (c.method_sound hf).fitting
    exact ⟨produced.known_iff, produced.proven_iff, fun v t r => produced.replaced⟩

def converting (push : Opcode) (owner descriptor returned : String) : Method :=
  { location := ⟨"com/example/Sample", "value", "()" ++ returned⟩
    instructions :=
      [.plain push, .staticCall owner "valueOf" (descriptor ++ returned), .plain .areturn] }

def textOfZero : Method := converting .iconst0 "java/lang/String" "(I)" "Ljava/lang/String;"

def boxedTruth : Method := converting .iconst1 "java/lang/Boolean" "(Z)" "Ljava/lang/Boolean;"

def textClass : ClassTree :=
  ⟨"com/example/Sample", [textOfZero], [(textOfZero.location, 0)], by decide +kernel⟩

def truthClass : ClassTree :=
  ⟨"com/example/Sample", [boxedTruth], [(boxedTruth.location, 0)], by decide +kernel⟩

theorem boxedTruth_value :
    (equivalentReturns.filteredBy truthClass
      { id := ⟨boxedTruth.location, 2, .trueReturns⟩ }).result = .ok (some "hardcoded_true") ∧
    ∃ v, Returns boxedTruth.instructions 2 v ∧ Mutator.trueReturns.Substitutes v := by
  have filtered : (equivalentReturns.filteredBy truthClass
      { id := ⟨boxedTruth.location, 2, .trueReturns⟩ }).result = .ok (some "hardcoded_true") := rfl
  refine ⟨filtered, ?_⟩
  have exact_value := filtered_value_iff truthClass { id := ⟨boxedTruth.location, 2, .trueReturns⟩ }
    boxedTruth (List.mem_singleton_self _) rfl _ filtered
  refine exact_value.2.1.mpr ?_
  intro call before
  have here : Before boxedTruth.instructions 2 1 (.staticCall "java/lang/Boolean" "valueOf"
      "(Z)Ljava/lang/Boolean;") := ⟨by decide, by decide, rfl⟩
  cases here.unique before
  exact ⟨rfl, rfl, rfl, rfl⟩

/-- The text of zero is taken for a boxed zero and dropped, though nothing is known of it. -/
theorem textOfZero_dropped :
    textOfZero ∈ textClass.methods ∧ textOfZero.instructions[2]? = some (.plain .areturn) ∧
    (equivalentReturns.filteredBy textClass
      { id := ⟨textOfZero.location, 2, .emptyReturns⟩ }).result = .ok (some "empty_return") ∧
    ¬ ∃ v, Returns textOfZero.instructions 2 v := by
  refine ⟨List.mem_singleton_self _, rfl, rfl, ?_⟩
  have call : Before textOfZero.instructions 2 1 (.staticCall "java/lang/String" "valueOf"
      "(I)Ljava/lang/String;") := ⟨by decide, by decide, rfl⟩
  have zero : Before textOfZero.instructions 2 2 (.plain .iconst0) := ⟨by decide, by decide, rfl⟩
  rintro ⟨v, returns⟩
  obtain ⟨w, boxes, -⟩ := (returns_valueOf call rfl zero rfl v).mp returns
  have owner : "java/lang/String" = w.owner := boxes.2.1
  cases w <;> revert owner <;> decide

end MutantSieve
