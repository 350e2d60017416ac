import MutantSieve.Proofs.Events

/-!
# Nested groups

A group asks its members in order, and a member that is a group asks its own. The filters in a tree
of groups are therefore asked depth first, and the tree answers as one flat group of them does,
whatever the shape of the tree and the names of its groups. The first filter that settles a mutation
answers for the tree, under its own name, and a batch is divided by these answers.
-/

set_option autoImplicit false

namespace MutantSieve

/-- Who drops a mutation when filters are asked in order: the first that settles it, unless it fails
on the mutation. -/
def namedBy (c : ClassTree) (fs : List Filter) (m : Mutation) : Except Error (Option String) :=
  match fs.find? (Filter.settles c m) with
  | some f => (f.verdict c m).map fun dropped => if dropped then some f.name else none
  | none => .ok none

theorem namedBy_ok_some_iff (c : ClassTree) (fs : List Filter) (m : Mutation) (name : String) :
    namedBy c fs m = .ok (some name) ↔
      ∃ f, fs.find? (Filter.settles c m) = some f ∧ f.verdict c m = .ok true ∧ f.name = name := by
  rw [namedBy]
  cases fs.find? (Filter.settles c m) with
  | none => simp
  | some f => rcases verdict : f.verdict c m with e | (_ | _) <;> simp [Except.map, verdict]

namespace Interceptor

variable (c : ClassTree) (m : Mutation)

theorem firstFilter_append (is js : List Interceptor) :
    firstFilter c m (is ++ js) =
      (firstFilter c m is).andThen fun found =>
        match found with
        | some name => .value (some name)
        | none => firstFilter c m js := by
  induction is with
  | nil => rfl
  | cons i is ih =>
    rw [List.cons_append, firstFilter, firstFilter, Traced.andThen_assoc, ih]
    congr 1
    funext found
    cases found <;> rfl

theorem firstFilter_singleton (i : Interceptor) : firstFilter c m [i] = filteredBy c m i := by
  rw [firstFilter]
  apply Eq.trans _ (Traced.andThen_value (filteredBy c m i))
  congr 1
  funext found
  cases found <;> rfl

mutual

theorem filteredBy_eq_leaves : (i : Interceptor) →
    filteredBy c m i = firstFilter c m (i.leaves.map filter)
  | filter f => (firstFilter_singleton c m (filter f)).symm
  | group _ members => by rw [filteredBy, leaves, firstFilter_eq_leaves members]

theorem firstFilter_eq_leaves : (is : List Interceptor) →
    firstFilter c m is = firstFilter c m ((leavesAll is).map filter)
  | [] => rfl
  | i :: rest => by
    rw [leavesAll, List.map_append, firstFilter_append, ← filteredBy_eq_leaves i,
      ← firstFilter_eq_leaves rest]
    rfl

end

theorem verdictOn_eq_leaves (i : Interceptor) :
    i.verdictOn c m = (firstFilter c m (i.leaves.map filter)).result := by
  rw [verdictOn, filteredBy_eq_leaves]

theorem firstFilter_filters (fs : List Filter) :
    (firstFilter c m (fs.map filter)).result = namedBy c fs m := by
  induction fs with
  | nil => rfl
  | cons f fs ih =>
    rw [List.map_cons, firstFilter]
    have asked : (filteredBy c m (filter f)).result =
        (f.verdict c m).map fun dropped => if dropped then some f.name else none := rfl
    rcases verdict : f.verdict c m with e | (_ | _) <;> rw [verdict] at asked
    · have settled : f.settles c m = true := by simp [Filter.settles, verdict]
      rw [Traced.andThen_error _ asked]
      simp [namedBy, settled, verdict, Except.map]
    · have passes : f.settles c m = false := by simp [Filter.settles, verdict]
      rw [Traced.andThen_ok _ asked]
      simpa [namedBy, passes] using ih
    · have settled : f.settles c m = true := by simp [Filter.settles, verdict]
      rw [Traced.andThen_ok _ asked]
      simp [namedBy, settled, verdict, Except.map, Traced.value]

theorem filteredBy_eq_namedBy (i : Interceptor) :
    (i.filteredBy c m).result = namedBy c i.leaves m := by
  rw [filteredBy_eq_leaves, firstFilter_filters]

def flat (name : String) (i : Interceptor) : Interceptor := group name (i.leaves.map filter)

theorem leavesAll_filters (fs : List Filter) : leavesAll (fs.map filter) = fs := by
  induction fs with
  | nil => rfl
  | cons f fs ih => rw [List.map_cons, leavesAll, ih, leaves, List.singleton_append]

theorem leaves_flat (name : String) (i : Interceptor) : (i.flat name).leaves = i.leaves := by
  rw [flat, leaves, leavesAll_filters]

/-- Two interceptors that cannot be told apart by the work on a class: they give the same results,
and call the same filters in the same order. -/
structure Alike (c : ClassTree) (i j : Interceptor) : Prop where
  isFiltered : ∀ m, i.isFiltered c m = j.isFiltered c m
  filteredBy : ∀ m, i.filteredBy c m = j.filteredBy c m
  intercept : ∀ ms, i.intercept c ms = j.intercept c ms
  partition : ∀ ms, i.partition c ms = j.partition c ms
  begin : i.begin c = j.begin c
  finish : i.finish = j.finish
  scope : ∀ batches, i.scope c batches = j.scope c batches

variable {c} {i j : Interceptor}

theorem intercept_congr (same : ∀ m, i.isFiltered c m = j.isFiltered c m) (ms : List Mutation) :
    i.intercept c ms = j.intercept c ms := by
  induction ms with
  | nil => rfl
  | cons m ms ih => rw [intercept, intercept, same, ih]

theorem partition_congr (same : ∀ m, i.filteredBy c m = j.filteredBy c m) (ms : List Mutation) :
    i.partition c ms = j.partition c ms := by
  induction ms with
  | nil => rfl
  | cons m ms ih => rw [partition, partition, same, ih]

theorem alike_of_leaves (same : i.leaves = j.leaves) : Alike c i j := by
  have asked (m : Mutation) : i.isFiltered c m = j.isFiltered c m := by
    rw [isFiltered_eq_inquiry, isFiltered_eq_inquiry, same]
  have named (m : Mutation) : i.filteredBy c m = j.filteredBy c m := by
    rw [filteredBy_eq_leaves, filteredBy_eq_leaves, same]
  have opened : i.begin c = j.begin c := by rw [begin_eq_leaves, begin_eq_leaves, same]
  have closed : i.finish = j.finish := by rw [finish_eq_leaves, finish_eq_leaves, same]
  have answers : i.answer c = j.answer c := by
    funext batch
    cases batch with
    | partition ms => rw [answer, answer, partition_congr named]
    | intercept ms => rw [answer, answer, intercept_congr asked]
  refine ⟨asked, named, intercept_congr asked, partition_congr named, opened, closed, ?_⟩
  intro batches
  rw [scope, scope, opened, closed, answers]

variable (c i)

/-- A tree of groups works as the flat group of its filters, under any name, in its results and in
the order of all calls. Whether it drops a mutation and which filter it names for that agree, errors
included: the filter is the first that settles the mutation, and it drops it itself. -/
theorem nested_as_flat (name : String) :
    Alike c i (i.flat name) ∧
    ∀ m,
      (∀ e, (i.isFiltered c m).result = .error e ↔ (i.filteredBy c m).result = .error e) ∧
      ((i.isFiltered c m).result = .ok true ↔
        ∃ f ∈ i.leaves, (i.filteredBy c m).result = .ok (some f.name)) ∧
      ∀ found, (i.filteredBy c m).result = .ok (some found) ↔
        ∃ f, i.leaves.find? (Filter.settles c m) = some f ∧ f.verdict c m = .ok true ∧
          f.name = found := by
  refine ⟨alike_of_leaves (leaves_flat name i).symm, fun m => ?_⟩
  have named (found : String) := namedBy_ok_some_iff c i.leaves m found
  rw [isFiltered_eq, filteredBy_eq_namedBy]
  refine ⟨?_, ?_, named⟩
  · intro e
    cases namedBy c i.leaves m <;> simp [Except.map]
  · constructor
    · intro dropped
      cases answer : namedBy c i.leaves m with
      | error e =>
        rw [answer] at dropped
        cases dropped
      | ok answered =>
        rw [answer] at dropped
        obtain ⟨found, rfl⟩ := Option.isSome_iff_exists.mp (Except.ok.inj dropped)
        obtain ⟨f, settles, -, rfl⟩ := (named found).mp answer
        exact ⟨f, List.mem_of_find?_eq_some settles, rfl⟩
    · rintro ⟨f, -, answer⟩
      rw [answer]
      rfl

/-- What becomes of a batch. The verdict on a mutation is that of the filters in the tree, asked
depth first. The batch is divided in its order by the verdicts on its mutations, unless one of them
is an error, and then the first of these is the answer. Asking only what stays gives the same list
or error, what stays once stays again, and the order of the batch matters to nothing but the order
of the answer and the choice of the error. -/
theorem batch_by_verdicts (i : Interceptor) (c : ClassTree) (ms : List Mutation) :
    (∀ m, i.verdictOn c m = namedBy c i.leaves m) ∧
    (∀ m, (i.isFiltered c m).result = (i.verdictOn c m).map Option.isSome) ∧
    ((∃ p, (i.partition c ms).result = .ok p) ↔ ∀ m ∈ ms, ∃ v, i.verdictOn c m = .ok v) ∧
    (∀ e, (i.partition c ms).result = .error e ↔ FirstFailure (i.verdictOn c) ms e) ∧
    (∀ p, (i.partition c ms).result = .ok p →
      p.kept.Sublist ms ∧ (p.filtered.map FilteredMutation.mutation).Sublist ms ∧
        (p.kept ++ p.filtered.map FilteredMutation.mutation).Perm ms ∧
        (∀ m ∈ p.kept, i.verdictOn c m = .ok none) ∧
        (∀ f ∈ p.filtered, i.verdictOn c f.mutation = .ok (some f.filter)) ∧
        (i.partition c p.kept).result = .ok ⟨p.kept, []⟩ ∧
        (i.intercept c p.kept).result = .ok p.kept) ∧
    (i.intercept c ms).result = (i.partition c ms).result.map Partition.kept ∧
    ∀ ms', ms.Perm ms' →
      (∀ p, (i.partition c ms).result = .ok p → ∃ p', (i.partition c ms').result = .ok p' ∧
        p'.kept.Perm p.kept ∧ p'.filtered.Perm p.filtered) ∧
      ((∃ e, (i.partition c ms).result = .error e) ↔
        ∃ e, (i.partition c ms').result = .error e) := by
  refine ⟨fun m => filteredBy_eq_namedBy c m i, fun m => isFiltered_eq c m i,
    partition_ok_iff_verdicts i c ms, fun e => ⟨failure_of_partition, partition_of_failure⟩, ?_,
    intercept_eq_partition i c ms, ?_⟩
  · intro p parted
    have divides := divides_of_partition parted
    have again := partition_of_divides divides.again
    refine ⟨divides.kept_sublist, divides.filtered_sublist, divides.perm, divides.kept_verdict,
      divides.filtered_verdict, again, ?_⟩
    rw [intercept_eq_partition, again]
    rfl
  · intro ms' hp
    exact ⟨fun p => partition_permuted hp, partition_fails_permuted hp,
      partition_fails_permuted hp.symm⟩

end Interceptor

end MutantSieve
