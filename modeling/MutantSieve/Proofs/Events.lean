import MutantSieve.Proofs.Batch

/-!
# The events of the work on a class

Groups pass every call on to their members, so the events are those of the filters in the tree,
depth first. A mutation is put to one filter after another until one of them drops it or fails on
it, and a batch goes on until a mutation is failed on. Around all batches every filter is opened and
closed once, whatever the answers are.
-/

set_option autoImplicit false

namespace MutantSieve

/-- A list up to its first member with a property, this one included. Without such a member it is
the whole list. -/
def upToFirst {α : Type} (p : α → Bool) (l : List α) : List α := l.take (l.findIdx p + 1)

section UpToFirst

variable {α : Type} {p : α → Bool} {a : α}

theorem upToFirst_cons_of_pos (h : p a = true) (l : List α) : upToFirst p (a :: l) = [a] := by
  simp [upToFirst, List.findIdx_cons, h]

theorem upToFirst_cons_of_neg (h : p a = false) (l : List α) :
    upToFirst p (a :: l) = a :: upToFirst p l := by
  simp [upToFirst, List.findIdx_cons, h]

end UpToFirst

/-- Whether the answer of a filter is the last one that is needed: it drops the mutation or fails
on it. -/
def Filter.settles (c : ClassTree) (m : Mutation) (f : Filter) : Bool :=
  match f.verdict c m with
  | .ok dropped => dropped
  | .error _ => true

def answerOf (c : ClassTree) (fs : List Filter) (m : Mutation) : Except Error Bool :=
  match fs.find? (Filter.settles c m) with
  | some f => f.verdict c m
  | none => .ok false

def failedOn (c : ClassTree) (fs : List Filter) (m : Mutation) : Bool := !(answerOf c fs m).isOk

def questions (c : ClassTree) (fs : List Filter) (m : Mutation) : List Event :=
  (upToFirst (Filter.settles c m) fs).map fun f => .asked f m

def evaluation (c : ClassTree) (fs : List Filter) (ms : List Mutation) : List Event :=
  (upToFirst (failedOn c fs) ms).flatMap (questions c fs)

def Batch.mutations : Batch → List Mutation
  | partition ms => ms
  | intercept ms => ms

namespace Traced

variable {α β γ : Type}

theorem value_andThen (a : α) (f : α → Traced β) : (value a).andThen f = f a := rfl

theorem andThen_assoc (t : Traced α) (f : α → Traced β) (g : β → Traced γ) :
    (t.andThen f).andThen g = t.andThen fun a => (f a).andThen g := by
  obtain ⟨events, e | a⟩ := t
  · rfl
  cases answer : (f a).result <;> simp [andThen, answer]

theorem andThen_value (t : Traced α) : t.andThen value = t := by
  obtain ⟨events, e | a⟩ := t
  · rfl
  · simp [andThen, value]

end Traced

section Filters

variable {c : ClassTree} {m : Mutation}

def inquiry (c : ClassTree) (m : Mutation) (fs : List Filter) : Traced Bool :=
  ⟨questions c fs m, answerOf c fs m⟩

theorem inquiry_nil : inquiry c m [] = .value false := rfl

theorem inquiry_cons (f : Filter) (fs : List Filter) :
    inquiry c m (f :: fs) =
      (Traced.mk [.asked f m] (f.verdict c m)).andThen fun dropped =>
        if dropped then .value true else inquiry c m fs := by
  cases verdict : f.verdict c m with
  | error e =>
    have settled : f.settles c m = true := by simp [Filter.settles, verdict]
    simp [inquiry, questions, answerOf, upToFirst_cons_of_pos settled, settled, verdict,
      Traced.andThen]
  | ok dropped =>
    cases dropped with
    | true =>
      have settled : f.settles c m = true := by simp [Filter.settles, verdict]
      simp [inquiry, questions, answerOf, upToFirst_cons_of_pos settled, settled, verdict,
        Traced.andThen, Traced.value]
    | false =>
      have passes : f.settles c m = false := by simp [Filter.settles, verdict]
      simp [inquiry, questions, answerOf, upToFirst_cons_of_neg passes, passes, Traced.andThen]

theorem inquiry_append (fs gs : List Filter) :
    inquiry c m (fs ++ gs) =
      (inquiry c m fs).andThen fun dropped =>
        if dropped then .value true else inquiry c m gs := by
  induction fs with
  | nil => rw [inquiry_nil, Traced.value_andThen, List.nil_append]; rfl
  | cons f fs ih =>
    rw [List.cons_append, inquiry_cons, inquiry_cons, Traced.andThen_assoc, ih]
    congr 1
    funext dropped
    cases dropped <;> rfl

end Filters

namespace Interceptor

section Hooks

mutual

theorem begin_eq_leaves (c : ClassTree) : (i : Interceptor) →
    i.begin c = i.leaves.map fun f => Event.opened f c.name
  | filter _ => rfl
  | group _ members => beginAll_eq_leaves c members

theorem beginAll_eq_leaves (c : ClassTree) : (is : List Interceptor) →
    beginAll c is = (leavesAll is).map fun f => Event.opened f c.name
  | [] => rfl
  | i :: rest => by
    rw [beginAll, leavesAll, List.map_append, begin_eq_leaves c i, beginAll_eq_leaves c rest]

end

mutual

theorem finish_eq_leaves : (i : Interceptor) → i.finish = i.leaves.map Event.closed
  | filter _ => rfl
  | group _ members => finishAll_eq_leaves members

theorem finishAll_eq_leaves : (is : List Interceptor) →
    finishAll is = (leavesAll is).map Event.closed
  | [] => rfl
  | i :: rest => by
    rw [finishAll, leavesAll, List.map_append, finish_eq_leaves i, finishAll_eq_leaves rest]

end

end Hooks

section Questions

variable (c : ClassTree) (m : Mutation)

mutual

theorem isFiltered_eq_inquiry : (i : Interceptor) →
    isFiltered c m i = inquiry c m i.leaves
  | filter f => by
    rw [leaves, inquiry_cons, isFiltered]
    exact (Traced.andThen_value _).symm.trans
      (congrArg _ (funext fun dropped => by cases dropped <;> rfl))
  | group _ members => by rw [isFiltered, leaves, anyFilters_eq_inquiry members]

theorem anyFilters_eq_inquiry : (is : List Interceptor) →
    anyFilters c m is = inquiry c m (leavesAll is)
  | [] => rfl
  | i :: rest => by
    rw [anyFilters, leavesAll, inquiry_append, isFiltered_eq_inquiry i, anyFilters_eq_inquiry rest]

end

mutual

theorem filteredBy_events : (i : Interceptor) →
    (filteredBy c m i).events = (isFiltered c m i).events
  | filter _ => rfl
  | group _ members => by rw [filteredBy, isFiltered, firstFilter_events members]

theorem firstFilter_events : (is : List Interceptor) →
    (firstFilter c m is).events = (anyFilters c m is).events
  | [] => rfl
  | i :: rest => by
    have here := filteredBy_events i
    have behind := firstFilter_events rest
    have same := isFiltered_eq c m i
    rw [firstFilter, anyFilters]
    cases named : (i.filteredBy c m).result with
    | error e =>
      rw [named] at same
      simp [Traced.andThen, named, same, Except.map, here]
    | ok found =>
      rw [named] at same
      cases found with
      | none => simp [Traced.andThen, named, same, Except.map, here, behind]
      | some name => simp [Traced.andThen, named, same, Except.map, here, Traced.value]

end

end Questions

section Batches

variable {c : ClassTree} {m : Mutation} {fs : List Filter}

theorem evaluation_cons_ok {dropped : Bool} (h : answerOf c fs m = .ok dropped)
    (ms : List Mutation) :
    evaluation c fs (m :: ms) = questions c fs m ++ evaluation c fs ms := by
  have goesOn : failedOn c fs m = false := by rw [failedOn, h]; rfl
  rw [evaluation, upToFirst_cons_of_neg goesOn, List.flatMap_cons]
  rfl

theorem evaluation_cons_error {e : Error} (h : answerOf c fs m = .error e) (ms : List Mutation) :
    evaluation c fs (m :: ms) = questions c fs m := by
  have stops : failedOn c fs m = true := by rw [failedOn, h]; rfl
  rw [evaluation, upToFirst_cons_of_pos stops, List.flatMap_cons, List.flatMap_nil, List.append_nil]

variable (i : Interceptor) (c : ClassTree)

theorem isFiltered_result (m : Mutation) : (i.isFiltered c m).result = answerOf c i.leaves m := by
  rw [isFiltered_eq_inquiry]
  rfl

theorem isFiltered_events (m : Mutation) : (i.isFiltered c m).events = questions c i.leaves m := by
  rw [isFiltered_eq_inquiry]
  rfl

theorem filteredBy_result (m : Mutation) :
    (i.filteredBy c m).result.map Option.isSome = answerOf c i.leaves m := by
  rw [← isFiltered_eq, isFiltered_result]

theorem intercept_events (ms : List Mutation) :
    (i.intercept c ms).events = evaluation c i.leaves ms := by
  induction ms with
  | nil => rfl
  | cons m ms ih =>
    have asked := isFiltered_events i c m
    have result := isFiltered_result i c m
    rw [intercept, Traced.andThen]
    cases answer : answerOf c i.leaves m with
    | error e =>
      rw [answer] at result
      rw [result, evaluation_cons_error answer]
      exact asked
    | ok dropped =>
      rw [answer] at result
      rw [result, evaluation_cons_ok answer, ← ih, ← asked]
      rfl

theorem partition_events (ms : List Mutation) :
    (i.partition c ms).events = evaluation c i.leaves ms := by
  induction ms with
  | nil => rfl
  | cons m ms ih =>
    have asked := (filteredBy_events c m i).trans (isFiltered_events i c m)
    have result := filteredBy_result i c m
    rw [partition, Traced.andThen]
    cases named : (i.filteredBy c m).result with
    | error e =>
      rw [named] at result
      rw [evaluation_cons_error result.symm]
      exact asked
    | ok found =>
      rw [named] at result
      rw [evaluation_cons_ok result.symm, ← ih, ← asked]
      rfl

theorem answer_events (b : Batch) : (i.answer c b).1 = evaluation c i.leaves b.mutations := by
  cases b with
  | partition ms => exact partition_events i c ms
  | intercept ms => exact intercept_events i c ms

/-- The events of the work on a class. Every filter is opened once, depth first, then the batches
are evaluated, and then every filter is closed once, depth first, also where a batch has failed and
where there was none. Which mutation a batch fails on is decided by the filters alone. -/
theorem scope_brackets (batches : List Batch) :
    (i.scope c batches).1 =
      i.leaves.map (fun f => Event.opened f c.name) ++
        batches.flatMap (fun b => evaluation c i.leaves b.mutations) ++
        i.leaves.map Event.closed ∧
    ∀ m, (i.isFiltered c m).result = answerOf c i.leaves m ∧
      (i.filteredBy c m).result.map Option.isSome = answerOf c i.leaves m := by
  refine ⟨?_, fun m => ⟨isFiltered_result i c m, filteredBy_result i c m⟩⟩
  have answers : (batches.map (i.answer c)).flatMap Prod.fst =
      batches.flatMap fun b => evaluation c i.leaves b.mutations := by
    rw [List.flatMap_map]
    exact List.flatMap_congr fun b _ => answer_events i c b
  rw [scope]
  simp only [begin_eq_leaves, finish_eq_leaves, answers]

end Batches

end Interceptor

end MutantSieve
