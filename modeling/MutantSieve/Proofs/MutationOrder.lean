import Mathlib.Data.List.Basic
import MutantSieve.Mutation
import MutantSieve.Proofs.Mutator

/-!
# The order of mutations

The ids of mutations are compared part by part, and the first part in which they differ decides. The
comparison is a total order in which nothing but an id itself is equal to it. So a sorted list of
ids depends only on how often each id is in it, and equal ids stand side by side there.
-/

set_option autoImplicit false

namespace MutantSieve

namespace Mutator

inductive Precedes : Mutator → Mutator → Prop
  | known {m n : Mutator} (listed : [m, n].Sublist Mutator.known) : Precedes m n
  | unknown {m : Mutator} (id : String) (listed : m ∈ Mutator.known) : Precedes m (other id)
  | ids {id id' : String} (smaller : id < id') : Precedes (other id) (other id')

def unknownId : Mutator → String
  | other id => id
  | _ => ""

theorem compare_eq_lex : compare = compareLex (compareOn rank) (compareOn unknownId) := by
  funext m n
  cases m <;> cases n <;>
    simp [compare, compareLex, compareOn, rank, unknownId, Std.ReflCmp.compare_self] <;> rfl

theorem eq_of_rank_of_unknownId {m n : Mutator} (ranks : m.rank = n.rank)
    (ids : m.unknownId = n.unknownId) : m = n := by
  cases m <;> cases n <;> simp_all [rank, unknownId]

instance : Std.TransCmp Mutator.compare := by
  rw [compare_eq_lex]
  infer_instance

instance : Std.LawfulEqCmp Mutator.compare where
  eq_of_compare {m n} h := by
    rw [compare_eq_lex, compareLex_eq_eq] at h
    exact eq_of_rank_of_unknownId (Std.LawfulEqCmp.eq_of_compare h.1)
      (Std.LawfulEqCmp.eq_of_compare h.2)

theorem known_or_other (m : Mutator) : m ∈ known ∨ ∃ id, m = other id := by
  rw [mem_known_iff]
  by_cases unknown : ∃ id, m = other id
  · exact .inr unknown
  · exact .inl fun id same => unknown ⟨id, same⟩

theorem compare_known : ∀ m ∈ known, ∀ n ∈ known,
    (compare m n = .lt ↔ [m, n].Sublist known) := by decide

theorem compare_known_other {m : Mutator} (h : m ∈ known) (id : String) :
    compare m (other id) = .lt := by
  cases m with
  | other id' => exact absurd h (not_known_other id')
  | _ => rfl

theorem compare_lt_iff {m n : Mutator} : m.compare n = .lt ↔ m.Precedes n := by
  rcases m.known_or_other with hm | ⟨id, rfl⟩ <;> rcases n.known_or_other with hn | ⟨id', rfl⟩
  · rw [compare_known m hm n hn]
    constructor
    · exact .known
    · rintro (listed | ⟨id, -⟩ | _)
      · exact listed
      · exact absurd hn (not_known_other id)
      · exact absurd hn (not_known_other _)
  · exact iff_of_true (compare_known_other hm id') (.unknown id' hm)
  · have last : compare (other id) n = .gt := by
      rw [Std.OrientedCmp.gt_iff_lt]
      exact compare_known_other hn id
    rw [last]
    constructor
    · rintro ⟨⟩
    · rintro (listed | ⟨id, listed⟩ | _)
      · exact absurd (listed.subset (by simp)) (not_known_other id)
      · exact absurd listed (not_known_other _)
      · exact absurd hn (not_known_other _)
  · rw [show compare (other id) (other id') = Ord.compare id id' from rfl]
    rw [show Ord.compare id id' = .lt ↔ id < id' from compareOfLessAndEq_eq_lt]
    constructor
    · exact .ids
    · rintro (listed | ⟨_, listed⟩ | smaller)
      · exact absurd (listed.subset (by simp)) (not_known_other id)
      · exact absurd listed (not_known_other _)
      · exact smaller

end Mutator

namespace Location

theorem compare_eq_lex : Location.compare =
    compareLex (compareLex (compareOn Location.class) (compareOn Location.method))
      (compareOn Location.descriptor) := rfl

instance : Std.TransCmp Location.compare := by
  rw [compare_eq_lex]
  infer_instance

inductive Precedes (l k : Location) : Prop
  | class (smaller : l.class < k.class)
  | method (classes : l.class = k.class) (smaller : l.method < k.method)
  | descriptor (classes : l.class = k.class) (methods : l.method = k.method)
      (smaller : l.descriptor < k.descriptor)

theorem compare_eq_eq {l k : Location} : l.compare k = .eq ↔ l = k := by
  cases l
  cases k
  simp [compare_eq_lex, compareLex_eq_eq, compareOn, and_assoc]

instance : Std.LawfulEqCmp Location.compare where
  eq_of_compare := compare_eq_eq.mp

theorem compare_lt_iff {l k : Location} : l.compare k = .lt ↔ l.Precedes k := by
  have smaller : ∀ s t : String, Ord.compare s t = .lt ↔ s < t := fun _ _ =>
    compareOfLessAndEq_eq_lt
  have same : ∀ s t : String, Ord.compare s t = .eq ↔ s = t := fun _ _ =>
    Std.LawfulEqCmp.compare_eq_iff_eq
  simp only [compare, Ordering.then_eq_lt, Ordering.then_eq_eq, smaller, same]
  constructor
  · rintro ((first | ⟨classes, first⟩) | ⟨⟨classes, methods⟩, first⟩)
    · exact .class first
    · exact .method classes first
    · exact .descriptor classes methods first
  · rintro (first | ⟨classes, first⟩ | ⟨classes, methods, first⟩)
    · exact .inl (.inl first)
    · exact .inl (.inr ⟨classes, first⟩)
    · exact .inr ⟨⟨classes, methods⟩, first⟩

end Location

namespace MutationId

inductive Precedes (i j : MutationId) : Prop
  | location (before : i.location.Precedes j.location)
  | index (locations : i.location = j.location) (smaller : i.index < j.index)
  | mutator (locations : i.location = j.location) (indices : i.index = j.index)
      (before : i.mutator.Precedes j.mutator)

variable {i j : MutationId} {ids : List MutationId}

theorem compare_eq_lex : MutationId.compare =
    compareLex
      (compareLex (fun i j => i.location.compare j.location) (compareOn fun i => i.index.toNat))
      (fun i j => i.mutator.compare j.mutator) := rfl

theorem transCmp_on {α β : Type} (cmp : β → β → Ordering) [Std.TransCmp cmp] (f : α → β) :
    Std.TransCmp fun a b => cmp (f a) (f b) where
  eq_swap := Std.OrientedCmp.eq_swap
  isLE_trans := Std.TransCmp.isLE_trans

instance : Std.TransCmp MutationId.compare := by
  have locations := transCmp_on Location.compare MutationId.location
  have mutators := transCmp_on Mutator.compare MutationId.mutator
  rw [compare_eq_lex]
  infer_instance

theorem compare_eq_eq : i.compare j = .eq ↔ i = j := by
  cases i
  cases j
  simp [compare_eq_lex, compareLex_eq_eq, compareOn, Std.LawfulEqCmp.compare_eq_iff_eq,
    UInt64.toNat_inj, and_assoc]

instance : Std.LawfulEqCmp MutationId.compare where
  eq_of_compare := compare_eq_eq.mp

theorem compare_lt_iff : i.compare j = .lt ↔ i.Precedes j := by
  have first : i.location.compare j.location = .lt ↔ i.location.Precedes j.location :=
    Location.compare_lt_iff
  have place : Ord.compare i.index.toNat j.index.toNat = .lt ↔ i.index < j.index := by
    rw [Nat.compare_eq_lt, UInt64.lt_iff_toNat_lt]
  have same : Ord.compare i.index.toNat j.index.toNat = .eq ↔ i.index = j.index := by
    rw [Nat.compare_eq_eq, UInt64.toNat_inj]
  simp only [compare, Ordering.then_eq_lt, Ordering.then_eq_eq, Location.compare_eq_eq,
    Mutator.compare_lt_iff, first, place, same]
  constructor
  · rintro ((smaller | ⟨locations, smaller⟩) | ⟨⟨locations, indices⟩, before⟩)
    · exact .location smaller
    · exact .index locations smaller
    · exact .mutator locations indices before
  · rintro (smaller | ⟨locations, smaller⟩ | ⟨locations, indices, before⟩)
    · exact .inl (.inl smaller)
    · exact .inl (.inr ⟨locations, smaller⟩)
    · exact .inr ⟨⟨locations, indices⟩, before⟩

theorem Precedes.trans {k : MutationId} (h : i.Precedes j) (h' : j.Precedes k) : i.Precedes k :=
  compare_lt_iff.mp (Std.TransCmp.lt_trans (compare_lt_iff.mpr h) (compare_lt_iff.mpr h'))

theorem Precedes.irrefl : ¬ i.Precedes i := by
  rw [← compare_lt_iff, compare_eq_eq.mpr rfl]
  exact nofun

section Sorting

theorem sort_perm (ids : List MutationId) : (sort ids).Perm ids := List.mergeSort_perm _ _

theorem sort_pairwise (ids : List MutationId) :
    (sort ids).Pairwise fun i j => (i.compare j).isLE := by
  apply List.pairwise_mergeSort
  · exact fun i j k => Std.TransCmp.isLE_trans
  · intro i j
    have swap : j.compare i = (i.compare j).swap := Std.OrientedCmp.eq_swap
    rw [swap]
    cases i.compare j <;> rfl

theorem sort_of_perm {ids ids' : List MutationId} (h : ids.Perm ids') : sort ids = sort ids' := by
  apply List.Perm.eq_of_pairwise _ (sort_pairwise ids) (sort_pairwise ids')
    ((sort_perm ids).trans (h.trans (sort_perm ids').symm))
  intro i j _ _ before behind
  exact compare_eq_eq.mp (Std.OrientedCmp.isLE_antisymm before behind)

theorem mem_dropRepeats : i ∈ dropRepeats ids ↔ i ∈ ids := by
  fun_induction dropRepeats ids with
  | case1 j rest ih => simp [ih]
  | case2 j k rest differ ih => simp [ih]
  | case3 => rfl

theorem pairwise_dropRepeats (sorted : ids.Pairwise fun i j => (i.compare j).isLE) :
    (dropRepeats ids).Pairwise Precedes := by
  fun_induction dropRepeats ids with
  | case1 j rest ih => exact ih sorted.of_cons
  | case2 j k rest differ ih =>
    apply List.Pairwise.cons _ (ih sorted.of_cons)
    intro l member
    -- The neighbour is larger, and everything behind it is not smaller than the neighbour.
    have smaller : j.compare k = .lt := by
      have ordered := List.rel_of_pairwise_cons sorted (List.mem_cons_self)
      have unequal : j.compare k ≠ .eq := fun h => differ (compare_eq_eq.mp h)
      cases order : j.compare k <;> simp_all
    have others : (k.compare l).isLE := by
      rcases List.mem_cons.mp (mem_dropRepeats.mp member) with rfl | behind
      · exact Std.ReflCmp.isLE_rfl
      · exact List.rel_of_pairwise_cons sorted.of_cons behind
    exact compare_lt_iff.mp (Std.TransCmp.lt_of_lt_of_isLE smaller others)
  | case3 ids short =>
    match ids, short with
    | [], _ => exact .nil
    | [j], _ => exact List.pairwise_singleton _ _
    | j :: k :: rest, short => exact absurd rfl (short j k rest)

end Sorting

/-- The comparison of ids decides by the first part in which they differ and is a total order, in
which only an id itself is equal to it. So permuted lists of ids are sorted to the same list, and
without the entries that equal their predecessor this list has each of the ids exactly once. -/
theorem totally_ordered :
    (∀ i j : MutationId, (i.compare j = .lt ↔ i.Precedes j) ∧ (i.compare j = .eq ↔ i = j) ∧
      (i.compare j = .gt ↔ j.Precedes i)) ∧
    (∀ i j k : MutationId, i.Precedes j → j.Precedes k → i.Precedes k) ∧
    (∀ ids ids' : List MutationId, ids.Perm ids' → sort ids = sort ids') ∧
    ∀ ids : List MutationId, (sort ids).Perm ids ∧ (dropRepeats (sort ids)).Pairwise Precedes ∧
      ∀ i, (dropRepeats (sort ids)).count i = if i ∈ ids then 1 else 0 := by
  refine ⟨fun i j => ⟨compare_lt_iff, compare_eq_eq, ?_⟩, ?_, fun _ _ => sort_of_perm, ?_⟩
  · rw [← compare_lt_iff, Std.OrientedCmp.gt_iff_lt]
  · exact fun i j k => Precedes.trans
  · intro ids
    have strict := pairwise_dropRepeats (sort_pairwise ids)
    refine ⟨sort_perm ids, strict, fun i => ?_⟩
    have apart : (dropRepeats (sort ids)).Nodup :=
      strict.imp fun before same => (same ▸ before).irrefl
    rw [apart.count]
    simp only [mem_dropRepeats, (sort_perm ids).mem_iff]

end MutationId

end MutantSieve
