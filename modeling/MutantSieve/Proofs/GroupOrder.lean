import MutantSieve.Proofs.Batch

/-!
# The order of the members of a group

A group asks its members in turn and stops at the first that drops the mutation or fails on it. The
order of the members therefore never decides what is kept, but it can decide whether there is an
answer at all: where one member drops a mutation that another fails on, the first of them has the
word.
-/

set_option autoImplicit false

namespace MutantSieve

def SameOutcome {α : Type} (r s : Except Error α) : Prop :=
  (∃ a, r = .ok a ∧ s = .ok a) ∨ (∃ e, r = .error e) ∧ ∃ e, s = .error e

theorem sameOutcome_iff {α : Type} {r s : Except Error α} :
    SameOutcome r s ↔ ∀ a, r = .ok a ↔ s = .ok a := by
  constructor
  · rintro (⟨a, rfl, rfl⟩ | ⟨⟨e, rfl⟩, e', rfl⟩)
    · simp
    · simp
  · intro h
    cases r with
    | ok a => exact Or.inl ⟨a, rfl, (h a).mp rfl⟩
    | error e =>
      cases s with
      | ok a =>
        have same := (h a).mpr rfl
        cases same
      | error e' => exact Or.inr ⟨⟨e, rfl⟩, e', rfl⟩

namespace Interceptor

def judged (c : ClassTree) (m : Mutation) (i : Interceptor) : Except Error Bool :=
  (i.isFiltered c m).result

/-- One member drops the mutation and another fails on it. -/
def Torn (c : ClassTree) (m : Mutation) (is : List Interceptor) : Prop :=
  (∃ i ∈ is, i.judged c m = .ok true) ∧ ∃ i ∈ is, ∃ e, i.judged c m = .error e

section Members

variable {c : ClassTree} {m : Mutation} {is is' : List Interceptor}

theorem judged_group (name : String) (is : List Interceptor) :
    (group name is).judged c m = (anyFilters c m is).result := by
  rw [judged, isFiltered]

theorem anyFilters_pass {i : Interceptor} (h : i.judged c m = .ok false)
    (rest : List Interceptor) :
    (anyFilters c m (i :: rest)).result = (anyFilters c m rest).result := by
  rw [anyFilters, Traced.andThen_ok _ h]
  rfl

theorem anyFilters_stop {i : Interceptor} (h : i.judged c m ≠ .ok false)
    (rest : List Interceptor) : (anyFilters c m (i :: rest)).result = i.judged c m := by
  rw [anyFilters]
  cases answer : i.judged c m with
  | error e => exact Traced.andThen_error _ answer
  | ok dropped =>
    cases dropped with
    | false => exact absurd answer h
    | true =>
      rw [Traced.andThen_ok _ answer]
      rfl

theorem anyFilters_false_iff :
    (anyFilters c m is).result = .ok false ↔ ∀ i ∈ is, i.judged c m = .ok false := by
  induction is with
  | nil => simp [anyFilters, Traced.value]
  | cons i rest ih =>
    by_cases passes : i.judged c m = .ok false
    · simp [anyFilters_pass passes, ih, passes]
    · simp [anyFilters_stop passes, passes]

theorem exists_member (h : (anyFilters c m is).result ≠ .ok false) :
    ∃ i ∈ is, i.judged c m = (anyFilters c m is).result := by
  induction is with
  | nil => exact absurd rfl h
  | cons i rest ih =>
    by_cases passes : i.judged c m = .ok false
    · rw [anyFilters_pass passes] at h ⊢
      obtain ⟨j, hj, same⟩ := ih h
      exact ⟨j, by simp [hj], same⟩
    · rw [anyFilters_stop passes]
      exact ⟨i, by simp, rfl⟩

theorem anyFilters_false_perm (hp : is.Perm is') (h : (anyFilters c m is).result = .ok false) :
    (anyFilters c m is').result = .ok false := by
  rw [anyFilters_false_iff] at h ⊢
  intro i hi
  exact h i (hp.mem_iff.mpr hi)

theorem anyFilters_perm (hp : is.Perm is') {b b' : Bool}
    (h : (anyFilters c m is).result = .ok b) (h' : (anyFilters c m is').result = .ok b') :
    b = b' := by
  -- A mutation that passes is let pass by every member, in whatever order they are asked.
  cases b with
  | false =>
    have same := anyFilters_false_perm hp h
    rw [h'] at same
    exact (Except.ok.inj same).symm
  | true =>
    cases b' with
    | false =>
      have same := anyFilters_false_perm hp.symm h'
      rw [h] at same
      cases same
    | true => rfl

theorem anyFilters_ok_of_not_torn (hp : is.Perm is') (whole : ¬ Torn c m is) {b : Bool}
    (h : (anyFilters c m is).result = .ok b) : (anyFilters c m is').result = .ok b := by
  cases answer : (anyFilters c m is').result with
  | ok b' => rw [anyFilters_perm hp h answer]
  | error e =>
    have stopped : (anyFilters c m is').result ≠ .ok false := by simp [answer]
    obtain ⟨j, hj, fails⟩ := exists_member stopped
    rw [answer] at fails
    have inside := hp.mem_iff.mpr hj
    cases b with
    | false =>
      have passes := anyFilters_false_iff.mp h j inside
      rw [fails] at passes
      cases passes
    | true =>
      have dropped : (anyFilters c m is).result ≠ .ok false := by simp [h]
      obtain ⟨i, hi, drops⟩ := exists_member dropped
      exact absurd ⟨⟨i, hi, drops.trans h⟩, j, inside, e, fails⟩ whole

theorem Torn.perm (hp : is.Perm is') (h : Torn c m is) : Torn c m is' := by
  obtain ⟨⟨i, hi, drops⟩, j, hj, fails⟩ := h
  exact ⟨⟨i, hp.mem_iff.mp hi, drops⟩, j, hp.mem_iff.mp hj, fails⟩

theorem exists_perm_cons {i : Interceptor} (hi : i ∈ is) : ∃ rest, is.Perm (i :: rest) := by
  obtain ⟨before, after, rfl⟩ := List.append_of_mem hi
  exact ⟨before ++ after, List.perm_middle⟩

end Members

section Batches

variable {c : ClassTree} {ms : List Mutation}

theorem intercept_eq_ok_iff (i : Interceptor) (kept : List Mutation) :
    (i.intercept c ms).result = .ok kept ↔
      (∀ m ∈ ms, ∃ b, i.judged c m = .ok b) ∧
        kept = ms.filter fun m => i.judged c m = .ok false := by
  induction ms generalizing kept with
  | nil => simp [intercept, Traced.value, eq_comm]
  | cons m ms ih =>
    cases answer : i.judged c m with
    | error e =>
      rw [intercept, Traced.andThen_error _ answer]
      simp [answer]
    | ok dropped =>
      have rest_kept : (i.intercept c (m :: ms)).result =
          (i.intercept c ms).result.map fun kept => if dropped then kept else m :: kept := by
        rw [intercept, Traced.andThen_ok _ answer, Traced.map_result]
      rw [rest_kept]
      constructor
      · intro h
        cases others : (i.intercept c ms).result with
        | error e =>
          rw [others] at h
          cases h
        | ok left =>
          rw [others] at h
          cases h
          obtain ⟨fine, rfl⟩ := (ih left).mp others
          refine ⟨by simpa [answer] using fine, ?_⟩
          cases dropped <;> simp [answer]
      · rintro ⟨fine, rfl⟩
        have others := (ih _).mpr ⟨fun n hn => fine n (by simp [hn]), rfl⟩
        rw [others]
        cases dropped <;> simp [answer, Except.map]

theorem intercept_fails {i : Interceptor} {m : Mutation} (hm : m ∈ ms) {e : Error}
    (fails : i.judged c m = .error e) : ∃ e', (i.intercept c ms).result = .error e' := by
  cases answer : (i.intercept c ms).result with
  | error e' => exact ⟨e', rfl⟩
  | ok kept =>
    obtain ⟨b, ok⟩ := ((intercept_eq_ok_iff i kept).mp answer).1 m hm
    rw [fails] at ok
    cases ok

def OrderFree (c : ClassTree) (is : List Interceptor) (ms : List Mutation) : Prop :=
  ∀ is', is.Perm is' → ∀ name name',
    SameOutcome ((group name is).intercept c ms).result ((group name' is').intercept c ms).result

variable {is is' : List Interceptor} {name name' : String}

theorem kept_perm (hp : is.Perm is') {kept kept' : List Mutation}
    (h : ((group name is).intercept c ms).result = .ok kept)
    (h' : ((group name' is').intercept c ms).result = .ok kept') : kept = kept' := by
  obtain ⟨fine, rfl⟩ := (intercept_eq_ok_iff _ _).mp h
  obtain ⟨fine', rfl⟩ := (intercept_eq_ok_iff _ _).mp h'
  apply List.filter_congr
  intro m hm
  obtain ⟨b, ok⟩ := fine m hm
  obtain ⟨b', ok'⟩ := fine' m hm
  rw [judged_group] at ok ok'
  have same := anyFilters_perm hp ok ok'
  rw [judged_group, judged_group, ok, ok', same]

theorem intercept_ok_of_not_torn (hp : is.Perm is') (whole : ∀ m ∈ ms, ¬ Torn c m is)
    {kept : List Mutation} (h : ((group name is).intercept c ms).result = .ok kept) :
    ((group name' is').intercept c ms).result = .ok kept := by
  have fine := ((intercept_eq_ok_iff _ _).mp h).1
  have fine' : ∀ m ∈ ms, ∃ b, (group name' is').judged c m = .ok b := by
    intro m hm
    obtain ⟨b, ok⟩ := fine m hm
    rw [judged_group] at ok
    rw [judged_group]
    exact ⟨b, anyFilters_ok_of_not_torn hp (whole m hm) ok⟩
  have answer := (intercept_eq_ok_iff (group name' is') _).mpr ⟨fine', rfl⟩
  rw [answer, kept_perm hp h answer]

theorem orderFree_of_not_torn (whole : ∀ m ∈ ms, ¬ Torn c m is) : OrderFree c is ms := by
  intro is' hp name name'
  have whole' : ∀ m ∈ ms, ¬ Torn c m is' := by
    intro m hm torn
    exact whole m hm (torn.perm hp.symm)
  rw [sameOutcome_iff]
  intro kept
  constructor
  · exact intercept_ok_of_not_torn hp whole
  · exact intercept_ok_of_not_torn hp.symm whole'

theorem intercept_fails_first {m : Mutation} (hm : m ∈ ms) {i : Interceptor} {e : Error}
    (fails : i.judged c m = .error e) (rest : List Interceptor) (name : String) :
    ∃ e', ((group name (i :: rest)).intercept c ms).result = .error e' := by
  have stops : i.judged c m ≠ .ok false := by simp [fails]
  have group_fails : (group name (i :: rest)).judged c m = .error e := by
    rw [judged_group, anyFilters_stop stops, fails]
  exact intercept_fails hm group_fails

theorem not_orderFree_of_torn {m : Mutation} (torn : Torn c m is) : ¬ OrderFree c is [m] := by
  intro free
  obtain ⟨⟨i, hi, drops⟩, j, hj, e, fails⟩ := torn
  obtain ⟨others, hp⟩ := exists_perm_cons hi
  obtain ⟨others', hp'⟩ := exists_perm_cons hj
  have stops : i.judged c m ≠ .ok false := by simp [drops]
  have group_drops : (group "" (i :: others)).judged c m = .ok true := by
    rw [judged_group, anyFilters_stop stops, drops]
  have dropped : ((group "" (i :: others)).intercept c [m]).result = .ok [] := by
    rw [intercept_eq_ok_iff]
    simp [group_drops]
  have dropped_here := (sameOutcome_iff.mp (free _ hp "" "") []).mpr dropped
  have dropped_there := (sameOutcome_iff.mp (free _ hp' "" "") []).mp dropped_here
  have single : m ∈ [m] := List.mem_singleton_self m
  obtain ⟨e', failed⟩ := intercept_fails_first single fails others' ""
  rw [failed] at dropped_there
  cases dropped_there

theorem orderFree_iff :
    OrderFree c is ms ↔
      (∀ m ∈ ms, ∀ i ∈ is, ∃ b, i.judged c m = .ok b) ∨
        ∀ is', is.Perm is' → ∀ name, ∃ e, ((group name is').intercept c ms).result = .error e := by
  constructor
  · intro free
    by_cases sound : ∀ m ∈ ms, ∀ i ∈ is, ∃ b, i.judged c m = .ok b
    · exact Or.inl sound
    right
    push Not at sound
    obtain ⟨m, hm, i, hi, unsound⟩ := sound
    obtain ⟨others, first⟩ := exists_perm_cons hi
    cases fails : i.judged c m with
    | ok b => exact absurd fails (unsound b)
    | error e =>
      intro is' hp name
      obtain ⟨e', failed⟩ := intercept_fails_first hm fails others ""
      cases answer : ((group name is').intercept c ms).result with
      | error e'' => exact ⟨e'', rfl⟩
      | ok kept =>
        have here := (sameOutcome_iff.mp (free is' hp "" name) kept).mpr answer
        have there := (sameOutcome_iff.mp (free _ first "" "") kept).mp here
        rw [failed] at there
        cases there
  · rintro (sound | hopeless)
    · apply orderFree_of_not_torn
      intro m hm torn
      obtain ⟨-, i, hi, e, fails⟩ := torn
      obtain ⟨b, ok⟩ := sound m hm i hi
      rw [fails] at ok
      cases ok
    · intro is' hp name name'
      exact Or.inr ⟨hopeless is (List.Perm.refl is) name, hopeless is' hp name'⟩

/-- What the order of the members of a group can change. Two orders that both divide a batch keep
the same mutations, so only success can depend on it. It does not where no mutation of the batch is
torn, for a single mutation exactly there, and for a whole batch exactly where no member fails or no
order succeeds. -/
theorem intercept_by_order (c : ClassTree) (is : List Interceptor) (ms : List Mutation) :
    (∀ is' name name' kept kept', is.Perm is' →
      ((group name is).intercept c ms).result = .ok kept →
      ((group name' is').intercept c ms).result = .ok kept' → kept = kept') ∧
    ((∀ m ∈ ms, ¬ Torn c m is) → OrderFree c is ms) ∧
    (∀ m, OrderFree c is [m] ↔ ¬ Torn c m is) ∧
    (OrderFree c is ms ↔
      (∀ m ∈ ms, ∀ i ∈ is, ∃ b, i.judged c m = .ok b) ∨
        ∀ is', is.Perm is' →
          ∀ name, ∃ e, ((group name is').intercept c ms).result = .error e) := by
  refine ⟨?_, orderFree_of_not_torn, ?_, orderFree_iff⟩
  · intro is' name name' kept kept' hp h h'
    exact kept_perm hp h h'
  · intro m
    constructor
    · intro free torn
      exact not_orderFree_of_torn torn free
    · intro whole
      apply orderFree_of_not_torn
      simpa using whole

def dropsFirst : Interceptor :=
  filter { name := "first", verdict := fun _ m => .ok (m.id.index = 0) }

def failsAlways : Interceptor :=
  filter { name := "broken", verdict := fun _ _ => .error (.refused "probe broken fails") }

def firstMutation : Mutation :=
  { id := ⟨⟨"com/example/Sample", "value", "()I"⟩, 0, .primitiveReturns⟩ }

theorem order_decides_success :
    [dropsFirst, failsAlways].Perm [failsAlways, dropsFirst] ∧
    ((compound [dropsFirst, failsAlways]).intercept (.empty "com/example/Sample")
      [firstMutation]).result = .ok [] ∧
    ((compound [failsAlways, dropsFirst]).intercept (.empty "com/example/Sample")
      [firstMutation]).result = .error (.refused "probe broken fails") := by
  exact ⟨List.Perm.swap .., rfl, rfl⟩

end Batches

end Interceptor

end MutantSieve
