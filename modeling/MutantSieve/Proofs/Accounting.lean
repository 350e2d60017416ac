import MutantSieve.Proofs.Mutator
import MutantSieve.Proofs.Summary
import MutantSieve.Proofs.Tally

/-!
# What a summary counts

The tally of the filters has an entry for every filter that dropped something, and the tally of the
mutators one for every label. Each entry is a number of occurrences, so the counts of two lists of
results add up, and neither the order of the classes nor that of the mutations matters.
-/

set_option autoImplicit false

namespace MutantSieve

def Partition.mutations (p : Partition) : List Mutation :=
  p.kept ++ p.filtered.map FilteredMutation.mutation

namespace Summary

def labels (p : Partition) : List String := keptLabels p ++ filteredLabels p

section Filters

theorem filters_eq_countIn (names : List String) :
    names.foldl countFilter [] = Tally.countIn id (fun _ n => n + 1) 0 [] names := rfl

theorem filters_ordered (names : List String) : Tally.Ordered (names.foldl countFilter []) := by
  rw [filters_eq_countIn]
  exact Tally.ordered_nil.countIn id _ 0 names

theorem foldl_succ {α : Type} (l : List α) (n : Nat) :
    l.foldl (fun n _ => n + 1) n = n + l.length := by
  induction l generalizing n with
  | nil => rfl
  | cons a l ih =>
    rw [List.foldl_cons, ih, List.length_cons]
    omega

theorem filters_lookup (names : List String) (name : String) :
    (names.foldl countFilter []).lookup name =
      if name ∈ names then some (names.count name) else none := by
  rw [filters_eq_countIn, Tally.lookup_countIn_nil, List.map_id, foldl_succ, Nat.zero_add,
    List.count_eq_length_filter]
  rfl

end Filters

section Mutators

def markedLabels (p : Partition) : List (String × Bool) :=
  (keptLabels p).map (fun l => (l, false)) ++ (filteredLabels p).map fun l => (l, true)

theorem markedLabels_fst (results : List Partition) :
    (results.flatMap markedLabels).map Prod.fst = results.flatMap labels := by
  rw [List.map_flatMap]
  apply List.flatMap_congr
  intro p _
  simp [markedLabels, labels, Function.comp_def]

def raise (e : String × Bool) (n : MutatorCount) : MutatorCount :=
  { total := n.total + 1, filtered := n.filtered + if e.2 then 1 else 0 }

theorem countMutators_eq_marked (t : Tally MutatorCount) (p : Partition) :
    countMutators t p = Tally.countIn Prod.fst raise {} t (markedLabels p) := by
  rw [countMutators, Tally.countIn, markedLabels, List.foldl_append, List.foldl_map,
    List.foldl_map]
  rfl

theorem mutators_eq_countIn (results : List Partition) :
    results.foldl countMutators [] =
      Tally.countIn Prod.fst raise {} [] (results.flatMap markedLabels) := by
  rw [Tally.countIn, List.foldl_flatMap]
  congr 1
  funext t p
  exact countMutators_eq_marked t p

theorem mutators_ordered (results : List Partition) :
    Tally.Ordered (results.foldl countMutators []) := by
  rw [mutators_eq_countIn]
  exact Tally.ordered_nil.countIn Prod.fst raise {} _

theorem foldl_raise (marks : List (String × Bool)) (n : MutatorCount) :
    marks.foldl (fun n e => raise e n) n =
      ⟨n.total + marks.length, n.filtered + marks.countP Prod.snd⟩ := by
  induction marks generalizing n with
  | nil => rfl
  | cons e marks ih =>
    rw [List.foldl_cons, ih, raise, List.length_cons, List.countP_cons]
    congr 1 <;> dsimp only <;> omega

theorem length_own_marks (results : List Partition) (label : String) :
    ((results.flatMap markedLabels).filter fun e => decide (e.1 = label)).length =
      (results.flatMap labels).count label := by
  rw [← markedLabels_fst, List.count, List.countP_map, List.countP_eq_length_filter]
  rfl

theorem dropped_own_marks (results : List Partition) (label : String) :
    ((results.flatMap markedLabels).filter fun e => decide (e.1 = label)).countP Prod.snd =
      (results.flatMap filteredLabels).count label := by
  rw [List.countP_filter, List.countP_flatMap, List.count_flatMap]
  congr 2
  funext p
  simp [markedLabels, List.countP_map, Function.comp_def, List.count, beq_eq_decide]

theorem mutators_lookup (results : List Partition) (label : String) :
    (results.foldl countMutators []).lookup label =
      if label ∈ results.flatMap labels then
        some ⟨(results.flatMap labels).count label, (results.flatMap filteredLabels).count label⟩
      else none := by
  rw [mutators_eq_countIn, Tally.lookup_countIn_nil, markedLabels_fst, foldl_raise,
    length_own_marks, dropped_own_marks]
  simp

def mutatorCount (s : Summary) (label : String) : MutatorCount := (s.byMutator.lookup label).getD {}

variable (results : List Partition) (features : List String) (duration : Elapsed)

end Mutators

section Totals

theorem total_lengths {α : Type} (f : Partition → List α) (results : List Partition) :
    total (results.map fun p => (f p).length) = (results.flatMap f).length := by
  induction results with
  | nil => rfl
  | cons p results ih => rw [List.map_cons, total_cons, ih, List.flatMap_cons, List.length_append]

variable (results : List Partition)

theorem total_kept :
    total (results.map Partition.keptCount) = (results.flatMap Partition.kept).length :=
  total_lengths Partition.kept results

theorem total_filtered :
    total (results.map Partition.filteredCount) = (results.flatMap Partition.filtered).length :=
  total_lengths Partition.filtered results

end Totals

section Results

variable (results : List Partition) (features : List String) (duration : Elapsed)

theorem mem_byFilter (name : String) (n : Nat) :
    (name, n) ∈ (ofResults results features duration).byFilter ↔
      name ∈ results.flatMap filterNames ∧ n = (results.flatMap filterNames).count name := by
  rw [ofResults, (filters_ordered _).mem_iff_lookup, filters_lookup]
  by_cases occurs : name ∈ results.flatMap filterNames
  · rw [if_pos occurs, Option.some.injEq, eq_comm]
    exact (and_iff_right occurs).symm
  · rw [if_neg occurs]
    simp [occurs]

theorem mem_byMutator (label : String) (n : MutatorCount) :
    (label, n) ∈ (ofResults results features duration).byMutator ↔
      label ∈ results.flatMap labels ∧ n.total = (results.flatMap labels).count label ∧
        n.filtered = (results.flatMap filteredLabels).count label := by
  obtain ⟨total, filtered⟩ := n
  rw [ofResults, (mutators_ordered _).mem_iff_lookup, mutators_lookup]
  by_cases occurs : label ∈ results.flatMap labels
  · rw [if_pos occurs, Option.some.injEq, eq_comm, MutatorCount.mk.injEq]
    exact (and_iff_right occurs).symm
  · rw [if_neg occurs]
    simp [occurs]

end Results

section Order

variable {results others : List Partition}

end Order

section Mutators

end Mutators

end Summary

end MutantSieve
