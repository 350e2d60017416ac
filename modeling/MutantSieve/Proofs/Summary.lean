import MutantSieve.Summary

/-!
# Sums of tallies

Every mutation is counted once in the tally of its mutator, and once in the tally of its filter if
it has one. The sums over the tallies are therefore the counts of the mutations.
-/

set_option autoImplicit false

namespace MutantSieve

@[simp] theorem Summary.total_cons (n : Nat) (ns : List Nat) : total (n :: ns) = n + total ns := rfl

theorem Summary.total_append (ms ns : List Nat) : total (ms ++ ns) = total ms + total ns := by
  induction ms with
  | nil => exact (Nat.zero_add _).symm
  | cons m ms ih => rw [List.cons_append, total_cons, total_cons, ih, Nat.add_assoc]

namespace Tally

variable {α : Type}

def sum (weight : α → Nat) (t : Tally α) : Nat :=
  Summary.total (t.map fun entry => weight entry.2)

@[simp] theorem sum_nil (weight : α → Nat) : sum weight [] = 0 := rfl

@[simp] theorem sum_cons (weight : α → Nat) (key : String) (a : α) (t : Tally α) :
    sum weight ((key, a) :: t) = weight a + sum weight t := by simp [sum]

theorem sum_update {weight : α → Nat} {change : Option α → α} {n : Nat}
    (fresh : weight (change none) = n) (grown : ∀ a, weight (change (some a)) = weight a + n)
    (key : String) (t : Tally α) : sum weight (t.update key change) = sum weight t + n := by
  induction t with
  | nil =>
    rw [update, sum_cons, fresh, sum_nil]
    omega
  | cons entry rest ih =>
    obtain ⟨k, a⟩ := entry
    rw [update]
    cases Ord.compare key k with
    | lt =>
      simp only [sum_cons, fresh]
      omega
    | eq =>
      simp only [sum_cons, grown]
      omega
    | gt =>
      simp only [sum_cons, ih]
      omega

theorem sum_foldl {weight : α → Nat} {step : Tally α → String → Tally α} {n : Nat}
    (adds : ∀ t key, sum weight (step t key) = sum weight t + n) (keys : List String)
    (t : Tally α) : sum weight (keys.foldl step t) = sum weight t + n * keys.length := by
  induction keys generalizing t with
  | nil => rfl
  | cons key keys ih =>
    rw [List.foldl_cons, ih, adds, List.length_cons, Nat.mul_succ]
    omega

end Tally

namespace Summary

theorem countFilter_sum (t : Tally Nat) (name : String) :
    Tally.sum id (countFilter t name) = Tally.sum id t + 1 :=
  Tally.sum_update rfl (fun _ => rfl) name t

theorem countMutator_total (filtered : Bool) (t : Tally MutatorCount) (label : String) :
    Tally.sum MutatorCount.total (countMutator filtered t label) =
      Tally.sum MutatorCount.total t + 1 :=
  Tally.sum_update rfl (fun _ => rfl) label t

theorem countMutator_filtered (filtered : Bool) (t : Tally MutatorCount) (label : String) :
    Tally.sum MutatorCount.filtered (countMutator filtered t label) =
      Tally.sum MutatorCount.filtered t + if filtered then 1 else 0 := by
  apply Tally.sum_update
  · exact Nat.zero_add _
  · intro n
    rfl

theorem countMutators_total (t : Tally MutatorCount) (p : Partition) :
    Tally.sum MutatorCount.total (countMutators t p) =
      Tally.sum MutatorCount.total t + (p.keptCount + p.filteredCount) := by
  rw [countMutators, Tally.sum_foldl (countMutator_total true),
    Tally.sum_foldl (countMutator_total false)]
  simp only [keptLabels, filteredLabels, List.length_map, Partition.keptCount,
    Partition.filteredCount]
  omega

theorem countMutators_filtered (t : Tally MutatorCount) (p : Partition) :
    Tally.sum MutatorCount.filtered (countMutators t p) =
      Tally.sum MutatorCount.filtered t + p.filteredCount := by
  rw [countMutators, Tally.sum_foldl (countMutator_filtered true),
    Tally.sum_foldl (countMutator_filtered false)]
  simp [filteredLabels, Partition.filteredCount]

variable (results : List Partition)

theorem mutators_total (t : Tally MutatorCount) :
    Tally.sum MutatorCount.total (results.foldl countMutators t) =
      Tally.sum MutatorCount.total t + (total (results.map Partition.keptCount) +
        total (results.map Partition.filteredCount)) := by
  induction results generalizing t with
  | nil => rfl
  | cons p results ih =>
    rw [List.foldl_cons, ih, countMutators_total]
    simp only [List.map_cons, total_cons]
    omega

theorem mutators_filtered (t : Tally MutatorCount) :
    Tally.sum MutatorCount.filtered (results.foldl countMutators t) =
      Tally.sum MutatorCount.filtered t + total (results.map Partition.filteredCount) := by
  induction results generalizing t with
  | nil => rfl
  | cons p results ih =>
    rw [List.foldl_cons, ih, countMutators_filtered]
    simp only [List.map_cons, total_cons]
    omega

theorem filterNames_length :
    (results.flatMap filterNames).length = total (results.map Partition.filteredCount) := by
  induction results with
  | nil => rfl
  | cons p results ih =>
    rw [List.flatMap_cons, List.length_append, ih, List.map_cons, total_cons, filterNames,
      List.length_map]
    rfl

theorem filters_sum :
    Tally.sum id ((results.flatMap filterNames).foldl countFilter []) =
      total (results.map Partition.filteredCount) := by
  rw [Tally.sum_foldl countFilter_sum, filterNames_length, Tally.sum_nil]
  omega

end Summary

end MutantSieve
