import MutantSieve.Pattern
import MutantSieve.Proofs.Batch
import MutantSieve.Proofs.ClassTree

/-!
# The verdict on a return mutation

The four families are asked in turn, each looks up the method of the mutation again, and each reads
its own few instructions. In a class whose instructions fit, at most one family claims a mutation.
The verdict is therefore the family that claims it, whatever the order.
-/

set_option autoImplicit false

namespace MutantSieve

def Mutator.ofReturns : List Mutator :=
  [primitiveReturns, trueReturns, falseReturns, nullReturns, emptyReturns]

def Opcode.zeros : List Opcode := [iconst0, lconst0, fconst0, dconst0]

theorem Opcode.mem_zeros {o : Opcode} :
    o ∈ zeros ↔ o = iconst0 ∨ o = lconst0 ∨ o = fconst0 ∨ o = dconst0 := by
  simp [zeros]

/-- What stands so many places before place `i` of a body. Nothing stands before a place that is
not in the body. -/
def Before (body : List Instruction) (i distance : Nat) (x : Instruction) : Prop :=
  distance ≤ i ∧ i < body.length ∧ body[i - distance]? = some x

def OpcodeBefore (body : List Instruction) (i distance : Nat) (o : Opcode) : Prop :=
  ∃ x, Before body i distance x ∧ x.opcode? = some o

def CallBefore (body : List Instruction) (i : Nat) (P : Call → Prop) : Prop :=
  ∃ call, Before body i 1 (.method call) ∧ P call

def Call.NamedValueOf (call : Call) : Prop := call.name = "valueOf"

def Call.EmptyFactory (call : Call) : Prop :=
  (call.owner, call.name) ∈ emptyFactories ∧
    ∃ d, MethodDescriptor.parse call.descriptor = .ok d ∧ d.arguments = []

/-- When a family claims a mutation of the mutator `u` at place `i` of a body. -/
def Pattern.Claims (body : List Instruction) (i : Nat) (u : Mutator) : Pattern → Prop
  | primitiveZero =>
    (u = .primitiveReturns ∨ u = .falseReturns) ∧ ∃ o ∈ Opcode.zeros, OpcodeBefore body i 1 o
  | hardcodedTrue =>
    u = .trueReturns ∧ (OpcodeBefore body i 1 .iconst1 ∨
      OpcodeBefore body i 2 .iconst1 ∧ CallBefore body i Call.NamedValueOf)
  | nullReturn => u = .nullReturns ∧ OpcodeBefore body i 1 .aconstNull
  | emptyReturn =>
    (u = .emptyReturns ∨ u = .falseReturns) ∧
      ((CallBefore body i Call.NamedValueOf ∧ ∃ o ∈ Opcode.zeros, OpcodeBefore body i 2 o) ∨
        Before body i 1 (.ldc (.string "")) ∨ CallBefore body i Call.EmptyFactory)

namespace Instruction

theorem carries_iff (x : Instruction) (o : Opcode) : x.carries o = true ↔ x.opcode? = some o := by
  simp [carries]

theorem pushesZero_iff (x : Instruction) :
    x.pushesZero = true ↔ ∃ o ∈ Opcode.zeros, x.opcode? = some o := by
  cases carried : x.opcode? with
  | none => simp [pushesZero, carried]
  | some o =>
    have zero : o.isZero = true ↔ o ∈ Opcode.zeros := by cases o <;> decide
    simpa [pushesZero, carried] using zero

theorem callsValueOf_iff (x : Instruction) :
    x.callsValueOf = true ↔ ∃ call, x = method call ∧ call.NamedValueOf := by
  cases x <;> simp [callsValueOf, Call.NamedValueOf]

theorem pushesEmptyString_iff (x : Instruction) :
    x.pushesEmptyString = true ↔ x = ldc (.string "") := by
  cases x with
  | ldc constant => cases constant <;> simp [pushesEmptyString]
  | _ => simp [pushesEmptyString]

theorem callsWithoutArguments_iff (owner name : String) (x : Instruction) :
    x.callsWithoutArguments owner name = true ↔
      ∃ call, x = method call ∧ call.owner = owner ∧ call.name = name ∧
        ∃ d, MethodDescriptor.parse call.descriptor = .ok d ∧ d.arguments = [] := by
  cases x with
  | method call =>
    simp only [callsWithoutArguments, MethodDescriptor.argumentCount, method.injEq, exists_eq_left']
    cases MethodDescriptor.parse call.descriptor <;> simp [Except.map, and_assoc]
  | _ => simp [callsWithoutArguments]

end Instruction

section Body

variable (body : List Instruction) (i : Nat)

theorem any_back_iff (distance : Nat) (P : Instruction → Bool) :
    ((Window.mk body i).back distance).any P = true ↔
      ∃ x, Before body i distance x ∧ P x = true := by
  simp only [Option.any_eq_true, Window.back_eq_some_iff, Before]

theorem carriesBack_iff (distance : Nat) (o : Opcode) :
    (Window.mk body i).carriesBack distance o = true ↔ OpcodeBefore body i distance o := by
  simp only [Window.carriesBack, any_back_iff, Instruction.carries_iff, OpcodeBefore]

theorem zeroBack_iff (distance : Nat) :
    (Window.mk body i).zeroBack distance = true ↔
      ∃ o ∈ Opcode.zeros, OpcodeBefore body i distance o := by
  simp only [Window.zeroBack, any_back_iff, Instruction.pushesZero_iff, OpcodeBefore]
  constructor
  · rintro ⟨x, before, o, zero, carried⟩
    exact ⟨o, zero, x, before, carried⟩
  · rintro ⟨o, zero, x, before, carried⟩
    exact ⟨x, before, o, zero, carried⟩

theorem callBefore_iff (P : Call → Prop) :
    CallBefore body i P ↔ ∃ x, Before body i 1 x ∧ ∃ call, x = .method call ∧ P call := by
  constructor
  · rintro ⟨call, before, holds⟩
    exact ⟨_, before, call, rfl, holds⟩
  · rintro ⟨_, before, call, rfl, holds⟩
    exact ⟨call, before, holds⟩

theorem valueOfBack_iff :
    (Window.mk body i).valueOfBack 1 = true ↔ CallBefore body i Call.NamedValueOf := by
  simp only [Window.valueOfBack, any_back_iff, Instruction.callsValueOf_iff, callBefore_iff]

theorem emptyFactoryBack_iff :
    (Window.mk body i).emptyFactoryBack 1 = true ↔ CallBefore body i Call.EmptyFactory := by
  simp only [Window.emptyFactoryBack, Window.callBack, List.any_eq_true, any_back_iff,
    Instruction.callsWithoutArguments_iff, callBefore_iff, Call.EmptyFactory]
  constructor
  · rintro ⟨⟨owner, name⟩, listed, x, before, call, rfl, rfl, rfl, niladic⟩
    exact ⟨_, before, call, rfl, listed, niladic⟩
  · rintro ⟨_, before, call, rfl, listed, niladic⟩
    exact ⟨_, listed, _, before, call, rfl, rfl, rfl, niladic⟩

theorem emptyStringBack_iff :
    (Window.mk body i).emptyStringBack 1 = true ↔ Before body i 1 (.ldc (.string "")) := by
  simp [Window.emptyStringBack, any_back_iff, Instruction.pushesEmptyString_iff]

theorem Pattern.claims_iff (u : Mutator) (p : Pattern) :
    (p.accepts u && p.found ⟨body, i⟩) = true ↔ p.Claims body i u := by
  rw [Bool.and_eq_true]
  cases p with
  | primitiveZero =>
    have family : Pattern.primitiveZero.accepts u = true ↔
        u = .primitiveReturns ∨ u = .falseReturns := by cases u <;> simp [Pattern.accepts]
    rw [family, Pattern.found, zeroBack_iff, Pattern.Claims]
  | hardcodedTrue =>
    have family : Pattern.hardcodedTrue.accepts u = true ↔ u = .trueReturns := by
      cases u <;> simp [Pattern.accepts]
    rw [family, Pattern.found, Bool.or_eq_true, Bool.and_eq_true, carriesBack_iff, carriesBack_iff,
      valueOfBack_iff, Pattern.Claims]
  | nullReturn =>
    have family : Pattern.nullReturn.accepts u = true ↔ u = .nullReturns := by
      cases u <;> simp [Pattern.accepts]
    rw [family, Pattern.found, carriesBack_iff, Pattern.Claims]
  | emptyReturn =>
    have family : Pattern.emptyReturn.accepts u = true ↔
        u = .emptyReturns ∨ u = .falseReturns := by cases u <;> simp [Pattern.accepts]
    rw [family, Pattern.found, Bool.or_eq_true, Bool.or_eq_true, Bool.and_eq_true, valueOfBack_iff,
      zeroBack_iff, emptyStringBack_iff, emptyFactoryBack_iff, or_assoc, Pattern.Claims]

end Body

theorem Before.mem {body : List Instruction} {i distance : Nat} {x : Instruction}
    (h : Before body i distance x) : x ∈ body :=
  List.mem_of_getElem? h.2.2

theorem Before.unique {body : List Instruction} {i distance : Nat} {x y : Instruction}
    (hx : Before body i distance x) (hy : Before body i distance y) : x = y :=
  Option.some.inj (hx.2.2.symm.trans hy.2.2)

theorem Instruction.plain_of_fits {x : Instruction} {o : Opcode} (fit : x.fits = true)
    (carried : x.opcode? = some o) (alone : (plain o).fits = true) : x = plain o := by
  cases x with
  | plain o' => exact congrArg plain (Option.some.inj carried)
  | int o' n =>
    cases carried
    cases o <;> simp [fits] at fit alone
  | ldc constant =>
    cases carried
    simp [fits] at alone
  | label id => cases carried
  | line number start => cases carried
  | _ =>
    cases carried
    simp_all [fits]

theorem OpcodeBefore.plain {body : List Instruction} (fits : ∀ x ∈ body, x.fits = true)
    {i distance : Nat} {o : Opcode} (h : OpcodeBefore body i distance o)
    (alone : (Instruction.plain o).fits = true) : Before body i distance (.plain o) := by
  obtain ⟨x, before, carried⟩ := h
  have same := Instruction.plain_of_fits (fits x before.mem) carried alone
  exact same ▸ before

theorem Opcode.zeros_alone : ∀ o ∈ zeros, (Instruction.plain o).fits = true := by decide

theorem not_zero_and_empty {body : List Instruction} (fits : ∀ x ∈ body, x.fits = true) {i : Nat}
    {u : Mutator} (zero : Pattern.primitiveZero.Claims body i u)
    (empty : Pattern.emptyReturn.Claims body i u) : False := by
  obtain ⟨-, o, listed, carried⟩ := zero
  have before := carried.plain fits (Opcode.zeros_alone o listed)
  obtain ⟨-, ⟨⟨call, called, -⟩, -⟩ | text | ⟨call, called, -⟩⟩ := empty
  · cases before.unique called
  · cases before.unique text
  · cases before.unique called

theorem Pattern.Claims.accepts {body : List Instruction} {i : Nat} {u : Mutator} {p : Pattern}
    (h : p.Claims body i u) : p.accepts u = true :=
  ((Bool.and_eq_true _ _).mp ((claims_iff body i u p).mpr h)).1

theorem Pattern.Claims.within {body : List Instruction} {i : Nat} {u : Mutator} {p : Pattern}
    (h : p.Claims body i u) : 1 ≤ i ∧ i < body.length := by
  have near : ∀ x, Before body i 1 x → 1 ≤ i ∧ i < body.length := fun x hx => ⟨hx.1, hx.2.1⟩
  cases p with
  | primitiveZero =>
    obtain ⟨-, o, -, x, before, -⟩ := h
    exact near x before
  | hardcodedTrue =>
    obtain ⟨-, ⟨x, before, -⟩ | ⟨-, call, before, -⟩⟩ := h
    · exact near x before
    · exact near _ before
  | nullReturn =>
    obtain ⟨-, x, before, -⟩ := h
    exact near x before
  | emptyReturn =>
    obtain ⟨-, ⟨⟨call, before, -⟩, -⟩ | before | ⟨call, before, -⟩⟩ := h
    · exact near _ before
    · exact near _ before
    · exact near _ before

/-- The families of zeros and of empty values share mutators, and no other two do. -/
theorem Pattern.families_overlap {u : Mutator} {p q : Pattern} (hp : p.accepts u = true)
    (hq : q.accepts u = true) :
    p = q ∨ (p = primitiveZero ∧ q = emptyReturn) ∨ (p = emptyReturn ∧ q = primitiveZero) := by
  cases p <;> cases q <;> cases u <;> simp [Pattern.accepts] at hp hq ⊢

theorem Pattern.claims_unique {body : List Instruction} (fits : ∀ x ∈ body, x.fits = true) {i : Nat}
    {u : Mutator} {p q : Pattern} (hp : p.Claims body i u) (hq : q.Claims body i u) : p = q := by
  rcases families_overlap hp.accepts hq.accepts with same | ⟨rfl, rfl⟩ | ⟨rfl, rfl⟩
  · exact same
  · exact (not_zero_and_empty fits hp hq).elim
  · exact (not_zero_and_empty fits hq hp).elim

theorem Pattern.mem_all (p : Pattern) : p ∈ Pattern.all := by cases p <;> decide

theorem Pattern.any_accepts_iff (u : Mutator) :
    (Pattern.all.any fun p => p.accepts u) = true ↔ u ∈ Mutator.ofReturns := by
  cases u <;> simp [Pattern.all, Pattern.accepts, Mutator.ofReturns]

theorem Pattern.verdict_of_resolved {c : ClassTree} {m : Mutation} {f : Method}
    (found : c.resolve m.id.location = .ok f) (p : Pattern) :
    p.verdict c m = .ok (p.accepts m.id.mutator && p.found ⟨f.instructions, m.id.index.toNat⟩) := by
  rw [verdict, found]
  cases p.accepts m.id.mutator <;> rfl

theorem Pattern.verdict_of_unresolved {c : ClassTree} {m : Mutation} {e : Error}
    (missing : c.resolve m.id.location = .error e) (p : Pattern) :
    p.verdict c m = if p.accepts m.id.mutator then .error e else .ok false := by
  rw [verdict, missing]

namespace Interceptor

theorem filteredBy_pattern (c : ClassTree) (m : Mutation) (p : Pattern) :
    (filteredBy c m p.interceptor).result =
      (p.verdict c m).map fun found => if found then some p.name else none := rfl

theorem firstFilter_patterns_ok {c : ClassTree} {m : Mutation} {f : Method}
    (found : c.resolve m.id.location = .ok f) (ps : List Pattern) :
    (firstFilter c m (ps.map Pattern.interceptor)).result =
      .ok ((ps.find? fun p => p.accepts m.id.mutator &&
        p.found ⟨f.instructions, m.id.index.toNat⟩).map Pattern.name) := by
  induction ps with
  | nil => rfl
  | cons p ps ih =>
    have head := filteredBy_pattern c m p
    rw [Pattern.verdict_of_resolved found] at head
    rw [List.map_cons, firstFilter, Traced.andThen_ok _ head, List.find?_cons]
    cases p.accepts m.id.mutator && p.found ⟨f.instructions, m.id.index.toNat⟩ with
    | true => rfl
    | false => exact ih

theorem firstFilter_patterns_error {c : ClassTree} {m : Mutation} {e : Error}
    (missing : c.resolve m.id.location = .error e) (ps : List Pattern) :
    (firstFilter c m (ps.map Pattern.interceptor)).result =
      if ps.any fun p => p.accepts m.id.mutator then .error e else .ok none := by
  induction ps with
  | nil => rfl
  | cons p ps ih =>
    have head := filteredBy_pattern c m p
    rw [Pattern.verdict_of_unresolved missing] at head
    rw [List.map_cons, firstFilter, List.any_cons]
    cases family : p.accepts m.id.mutator with
    | true =>
      rw [family] at head
      rw [Traced.andThen_error _ head]
      rfl
    | false =>
      rw [family] at head
      rw [Traced.andThen_ok _ head]
      exact ih

end Interceptor

section Verdict

variable {c : ClassTree} {m : Mutation}

theorem verdict_declared {f : Method} (hf : f ∈ c.methods) (place : f.location = m.id.location) :
    ∃ found : Option Pattern, equivalentReturns.verdictOn c m = .ok (found.map Pattern.name) ∧
      ∀ p, found = some p ↔ p.Claims f.instructions m.id.index.toNat m.id.mutator := by
  have resolved := (c.resolve_eq_ok_iff m.id.location f).mpr ⟨hf, place⟩
  refine ⟨_, Interceptor.firstFilter_patterns_ok resolved Pattern.all, ?_⟩
  intro p
  rw [← Pattern.claims_iff]
  constructor
  · intro first
    have test := List.find?_some first
    exact test
  · intro test
    have claims := (Pattern.claims_iff _ _ _ p).mp test
    have asked : (Pattern.all.find? fun q => q.accepts m.id.mutator &&
        q.found ⟨f.instructions, m.id.index.toNat⟩).isSome = true :=
      List.find?_isSome.mpr ⟨p, p.mem_all, test⟩
    obtain ⟨q, first⟩ := Option.isSome_iff_exists.mp asked
    have other := List.find?_some first
    rw [Pattern.claims_iff] at other
    rw [first, Pattern.claims_unique (c.method_sound hf).fitting other claims]

theorem verdict_undeclared (missing : ∀ f ∈ c.methods, f.location ≠ m.id.location) :
    equivalentReturns.verdictOn c m =
      if m.id.mutator ∈ Mutator.ofReturns then .error (.unresolved m.id.location)
      else .ok none := by
  have unresolved := (c.resolve_eq_error_iff m.id.location _).mpr ⟨rfl, missing⟩
  have all := Interceptor.firstFilter_patterns_error unresolved Pattern.all
  simp only [Pattern.any_accepts_iff] at all
  exact all

theorem declared_or_not (c : ClassTree) (l : Location) :
    (∃ f ∈ c.methods, f.location = l) ∨ ∀ f ∈ c.methods, f.location ≠ l := by
  by_cases declared : ∃ f ∈ c.methods, f.location = l
  · exact Or.inl declared
  · exact Or.inr fun f hf place => declared ⟨f, hf, place⟩

theorem verdict_other (h : m.id.mutator ∉ Mutator.ofReturns) :
    equivalentReturns.verdictOn c m = .ok none := by
  rcases declared_or_not c m.id.location with ⟨f, hf, place⟩ | missing
  · obtain ⟨found, verdict, claims⟩ := verdict_declared hf place
    cases found with
    | none => exact verdict
    | some p =>
      have family := ((claims p).mp rfl).accepts
      refine absurd ((Pattern.any_accepts_iff _).mp ?_) h
      exact List.any_eq_true.mpr ⟨p, p.mem_all, family⟩
  · rw [verdict_undeclared missing, if_neg h]

theorem verdict_error_iff (e : Error) :
    equivalentReturns.verdictOn c m = .error e ↔
      m.id.mutator ∈ Mutator.ofReturns ∧ e = .unresolved m.id.location ∧
        ∀ f ∈ c.methods, f.location ≠ m.id.location := by
  rcases declared_or_not c m.id.location with ⟨f, hf, place⟩ | missing
  · obtain ⟨found, verdict, -⟩ := verdict_declared hf place
    rw [verdict]
    constructor
    · intro failed
      cases failed
    · rintro ⟨-, -, missing⟩
      exact absurd place (missing f hf)
  · rw [verdict_undeclared missing]
    by_cases family : m.id.mutator ∈ Mutator.ofReturns
    · rw [if_pos family]
      constructor
      · intro failed
        cases failed
        exact ⟨family, rfl, missing⟩
      · rintro ⟨-, rfl, -⟩
        rfl
    · simp [family]

theorem verdict_ok_iff :
    (∃ v, equivalentReturns.verdictOn c m = .ok v) ↔
      (m.id.mutator ∈ Mutator.ofReturns → ∃ f ∈ c.methods, f.location = m.id.location) := by
  constructor
  · rintro ⟨v, ok⟩ family
    rcases declared_or_not c m.id.location with declared | missing
    · exact declared
    · have failed := (verdict_error_iff _).mpr ⟨family, rfl, missing⟩
      rw [ok] at failed
      cases failed
  · intro declared
    cases verdict : equivalentReturns.verdictOn c m with
    | ok v => exact ⟨v, rfl⟩
    | error e =>
      obtain ⟨family, -, missing⟩ := (verdict_error_iff e).mp verdict
      obtain ⟨f, hf, place⟩ := declared family
      exact absurd place (missing f hf)

end Verdict

/-- The verdict of the four families on any mutation of any class. Outside their mutators they have
none, whatever the class. Within them the method has to be declared, and then the body decides: the
filter named is that of the family that claims the mutation, and a family claims none at the start
of the body or outside it. -/
theorem equivalentReturns_verdict (c : ClassTree) (m : Mutation) :
    (m.id.mutator ∉ Mutator.ofReturns → ∀ c', equivalentReturns.verdictOn c' m = .ok none) ∧
    (m.id.mutator ∈ Mutator.ofReturns →
      ((∃ e, equivalentReturns.verdictOn c m = .error e) ↔
        ∀ f ∈ c.methods, f.location ≠ m.id.location) ∧
      ∀ e, equivalentReturns.verdictOn c m = .error e → e = .unresolved m.id.location ∧
        e.message = "Mutation location " ++ m.id.location.display ++
          " does not resolve to a method of the current class") ∧
    ∀ f ∈ c.methods, f.location = m.id.location →
      ∃ found : Option Pattern, equivalentReturns.verdictOn c m = .ok (found.map Pattern.name) ∧
        (∀ p, found = some p ↔ p.Claims f.instructions m.id.index.toNat m.id.mutator) ∧
        (found ≠ none →
          1 ≤ m.id.index.toNat ∧ m.id.index.toNat < f.instructions.length) := by
  refine ⟨fun other c' => verdict_other other, ?_, ?_⟩
  · intro family
    refine ⟨⟨?_, ?_⟩, ?_⟩
    · rintro ⟨e, failed⟩
      exact ((verdict_error_iff e).mp failed).2.2
    · intro missing
      exact ⟨_, (verdict_error_iff _).mpr ⟨family, rfl, missing⟩⟩
    · intro e failed
      obtain ⟨-, rfl, -⟩ := (verdict_error_iff e).mp failed
      exact ⟨rfl, rfl⟩
  · intro f hf place
    obtain ⟨found, verdict, claims⟩ := verdict_declared hf place
    refine ⟨found, verdict, claims, ?_⟩
    intro some_found
    obtain ⟨p, rfl⟩ := Option.ne_none_iff_exists'.mp some_found
    exact ((claims p).mp rfl).within

end MutantSieve
