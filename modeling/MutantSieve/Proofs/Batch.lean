import Mathlib.Data.List.Perm.Basic
import MutantSieve.Interceptor

/-!
# Batches

An interceptor judges a mutation in two ways: it says whether it drops it, and it names the filter
that does. The two agree through every level of groups, the errors included. A batch is therefore
divided by one verdict on each of its mutations, and the first failing verdict stands for the batch.
-/

set_option autoImplicit false

namespace MutantSieve

inductive Partition.Divides (verdict : Mutation → Except Error (Option String)) :
    List Mutation → Partition → Prop
  | nil : Divides verdict [] {}
  | keep {m : Mutation} {ms : List Mutation} {p : Partition} (stays : verdict m = .ok none)
      (rest : Divides verdict ms p) : Divides verdict (m :: ms) { p with kept := m :: p.kept }
  | drop {m : Mutation} {name : String} {ms : List Mutation} {p : Partition}
      (goes : verdict m = .ok (some name)) (rest : Divides verdict ms p) :
      Divides verdict (m :: ms) { p with filtered := ⟨m, name⟩ :: p.filtered }

def FirstFailure (verdict : Mutation → Except Error (Option String)) (ms : List Mutation)
    (e : Error) : Prop :=
  ∃ before m after, ms = before ++ m :: after ∧ (∀ n ∈ before, ∃ v, verdict n = .ok v) ∧
    verdict m = .error e

section Verdicts

variable {verdict : Mutation → Except Error (Option String)}

theorem not_firstFailure_nil (e : Error) : ¬ FirstFailure verdict [] e := by
  rintro ⟨before, m, after, split, -⟩
  simp at split

theorem firstFailure_cons_ok {m : Mutation} {v : Option String} (h : verdict m = .ok v)
    (ms : List Mutation) (e : Error) :
    FirstFailure verdict (m :: ms) e ↔ FirstFailure verdict ms e := by
  constructor
  · rintro ⟨before, n, after, split, fine, fails⟩
    rcases List.cons_eq_append_iff.mp split with ⟨rfl, start⟩ | ⟨before', rfl, rfl⟩
    · cases start
      rw [h] at fails
      cases fails
    · exact ⟨before', n, after, rfl, fun x hx => fine x (by simp [hx]), fails⟩
  · rintro ⟨before, n, after, rfl, fine, fails⟩
    refine ⟨m :: before, n, after, rfl, ?_, fails⟩
    intro x hx
    rcases List.mem_cons.mp hx with rfl | hx
    · exact ⟨v, h⟩
    · exact fine x hx

theorem firstFailure_cons_error {m : Mutation} {e' : Error} (h : verdict m = .error e')
    (ms : List Mutation) (e : Error) : FirstFailure verdict (m :: ms) e ↔ e' = e := by
  constructor
  · rintro ⟨before, n, after, split, fine, fails⟩
    rcases List.cons_eq_append_iff.mp split with ⟨rfl, start⟩ | ⟨before', rfl, -⟩
    · cases start
      rw [h] at fails
      exact Except.error.inj fails
    · obtain ⟨v, ok⟩ := fine m (by simp)
      rw [h] at ok
      cases ok
  · rintro rfl
    exact ⟨[], m, ms, rfl, by simp, h⟩

theorem firstFailure_mem {ms : List Mutation} {e : Error} (h : FirstFailure verdict ms e) :
    ∃ m ∈ ms, verdict m = .error e := by
  obtain ⟨before, m, after, rfl, -, fails⟩ := h
  exact ⟨m, by simp, fails⟩

namespace Partition.Divides

variable {ms : List Mutation} {p : Partition}

theorem verdict_ok (h : Divides verdict ms p) : ∀ m ∈ ms, ∃ v, verdict m = .ok v := by
  induction h with
  | nil => simp
  | keep stays _ ih => exact List.forall_mem_cons.mpr ⟨⟨none, stays⟩, ih⟩
  | drop goes _ ih => exact List.forall_mem_cons.mpr ⟨⟨some _, goes⟩, ih⟩

theorem kept_sublist (h : Divides verdict ms p) : p.kept.Sublist ms := by
  induction h with
  | nil => exact List.Sublist.slnil
  | keep _ _ ih => exact ih.cons_cons _
  | drop _ _ ih => exact ih.cons _

theorem filtered_sublist (h : Divides verdict ms p) :
    (p.filtered.map FilteredMutation.mutation).Sublist ms := by
  induction h with
  | nil => exact List.Sublist.slnil
  | keep _ _ ih => exact ih.cons _
  | drop _ _ ih => exact ih.cons_cons _

theorem perm (h : Divides verdict ms p) :
    (p.kept ++ p.filtered.map FilteredMutation.mutation).Perm ms := by
  induction h with
  | nil => exact List.Perm.refl _
  | keep _ _ ih => exact ih.cons _
  | drop _ _ ih => exact List.perm_middle.trans (ih.cons _)

theorem kept_verdict (h : Divides verdict ms p) : ∀ m ∈ p.kept, verdict m = .ok none := by
  induction h with
  | nil => simp
  | keep stays _ ih => exact List.forall_mem_cons.mpr ⟨stays, ih⟩
  | drop _ _ ih => exact ih

theorem filtered_verdict (h : Divides verdict ms p) :
    ∀ f ∈ p.filtered, verdict f.mutation = .ok (some f.filter) := by
  induction h with
  | nil => simp
  | keep _ _ ih => exact ih
  | drop goes _ ih => exact List.forall_mem_cons.mpr ⟨goes, ih⟩

theorem length_eq (h : Divides verdict ms p) : p.keptCount + p.filteredCount = ms.length := by
  simpa [keptCount, filteredCount] using h.perm.length_eq

theorem of_stays (h : ∀ m ∈ ms, verdict m = .ok none) : Divides verdict ms ⟨ms, []⟩ := by
  induction ms with
  | nil => exact nil
  | cons m ms ih =>
    obtain ⟨stays, rest⟩ := List.forall_mem_cons.mp h
    exact keep stays (ih rest)

theorem again (h : Divides verdict ms p) : Divides verdict p.kept ⟨p.kept, []⟩ :=
  of_stays h.kept_verdict

theorem permuted {ms' : List Mutation} (hp : ms.Perm ms') (h : Divides verdict ms p) :
    ∃ p', Divides verdict ms' p' ∧ p'.kept.Perm p.kept ∧ p'.filtered.Perm p.filtered := by
  induction hp generalizing p with
  | nil => exact ⟨p, h, List.Perm.refl _, List.Perm.refl _⟩
  | cons m _ ih =>
    cases h with
    | keep stays rest =>
      obtain ⟨p', divides, kept, filtered⟩ := ih rest
      exact ⟨_, keep stays divides, kept.cons _, filtered⟩
    | drop goes rest =>
      obtain ⟨p', divides, kept, filtered⟩ := ih rest
      exact ⟨_, drop goes divides, kept, filtered.cons _⟩
  | swap m n ms =>
    cases h with
    | keep staysN rest =>
      cases rest with
      | keep staysM rest =>
        exact ⟨_, keep staysM (keep staysN rest), List.Perm.swap .., List.Perm.refl _⟩
      | drop goesM rest =>
        exact ⟨_, drop goesM (keep staysN rest), List.Perm.refl _, List.Perm.refl _⟩
    | drop goesN rest =>
      cases rest with
      | keep staysM rest =>
        exact ⟨_, keep staysM (drop goesN rest), List.Perm.refl _, List.Perm.refl _⟩
      | drop goesM rest =>
        exact ⟨_, drop goesM (drop goesN rest), List.Perm.refl _, List.Perm.swap ..⟩
  | trans _ _ ih₁ ih₂ =>
    obtain ⟨p₁, divides₁, kept₁, filtered₁⟩ := ih₁ h
    obtain ⟨p₂, divides₂, kept₂, filtered₂⟩ := ih₂ divides₁
    exact ⟨p₂, divides₂, kept₂.trans kept₁, filtered₂.trans filtered₁⟩

end Partition.Divides

end Verdicts

namespace Interceptor

mutual

/-- Asking whether a mutation is dropped fails as asking for the filter does, and says whether one
is named. -/
theorem isFiltered_eq (c : ClassTree) (m : Mutation) : (i : Interceptor) →
    (i.isFiltered c m).result = (i.filteredBy c m).result.map Option.isSome
  | filter f => by
    simp only [isFiltered, filteredBy, Traced.map_result]
    rcases f.verdict c m with e | (_ | _) <;> rfl
  | group _ members => by
    simpa only [isFiltered, filteredBy] using anyFilters_eq c m members

theorem anyFilters_eq (c : ClassTree) (m : Mutation) : (is : List Interceptor) →
    (anyFilters c m is).result = (firstFilter c m is).result.map Option.isSome
  | [] => rfl
  | i :: rest => by
    have head := isFiltered_eq c m i
    rw [anyFilters, firstFilter]
    cases named : (i.filteredBy c m).result with
    | error e =>
      rw [named] at head
      rw [Traced.andThen_error _ head, Traced.andThen_error _ named]
      rfl
    | ok found =>
      rw [named] at head
      rw [Traced.andThen_ok _ head, Traced.andThen_ok _ named]
      cases found with
      | none => exact anyFilters_eq c m rest
      | some name => rfl

end

variable (i : Interceptor) (c : ClassTree)

def verdictOn (m : Mutation) : Except Error (Option String) := (i.filteredBy c m).result

variable {i c} {m : Mutation}

theorem partition_keep (stays : i.verdictOn c m = .ok none) (ms : List Mutation) :
    (i.partition c (m :: ms)).result =
      (i.partition c ms).result.map fun p => { p with kept := m :: p.kept } := by
  rw [partition, Traced.andThen_ok _ stays, Traced.map_result]

theorem partition_drop {name : String} (goes : i.verdictOn c m = .ok (some name))
    (ms : List Mutation) :
    (i.partition c (m :: ms)).result =
      (i.partition c ms).result.map fun p => { p with filtered := ⟨m, name⟩ :: p.filtered } := by
  rw [partition, Traced.andThen_ok _ goes, Traced.map_result]

theorem partition_fail {e : Error} (fails : i.verdictOn c m = .error e) (ms : List Mutation) :
    (i.partition c (m :: ms)).result = .error e := by
  rw [partition, Traced.andThen_error _ fails]

theorem intercept_ok {found : Option String} (h : i.verdictOn c m = .ok found)
    (ms : List Mutation) :
    (i.intercept c (m :: ms)).result =
      (i.intercept c ms).result.map fun kept => if found.isSome then kept else m :: kept := by
  have asked : (i.isFiltered c m).result = .ok found.isSome := by
    rw [isFiltered_eq, ← verdictOn, h]
    rfl
  rw [intercept, Traced.andThen_ok _ asked, Traced.map_result]

theorem intercept_fail {e : Error} (fails : i.verdictOn c m = .error e) (ms : List Mutation) :
    (i.intercept c (m :: ms)).result = .error e := by
  have asked : (i.isFiltered c m).result = .error e := by
    rw [isFiltered_eq, ← verdictOn, fails]
    rfl
  rw [intercept, Traced.andThen_error _ asked]

variable (i c)

theorem intercept_eq_partition (ms : List Mutation) :
    (i.intercept c ms).result = (i.partition c ms).result.map Partition.kept := by
  induction ms with
  | nil => rfl
  | cons m ms ih =>
    rcases verdict : i.verdictOn c m with e | (_ | name)
    · rw [intercept_fail verdict, partition_fail verdict]
      rfl
    · rw [intercept_ok verdict, partition_keep verdict, ih]
      cases (i.partition c ms).result <;> rfl
    · rw [intercept_ok verdict, partition_drop verdict, ih]
      cases (i.partition c ms).result <;> rfl

theorem partition_cases (ms : List Mutation) :
    (∃ p, (i.partition c ms).result = .ok p ∧ Partition.Divides (i.verdictOn c) ms p) ∨
      ∃ e, (i.partition c ms).result = .error e ∧ FirstFailure (i.verdictOn c) ms e := by
  induction ms with
  | nil => exact Or.inl ⟨{}, rfl, Partition.Divides.nil⟩
  | cons m ms ih =>
    rcases verdict : i.verdictOn c m with e | v
    · exact Or.inr ⟨e, partition_fail verdict ms, (firstFailure_cons_error verdict ms e).mpr rfl⟩
    rcases ih with ⟨p, parted, divides⟩ | ⟨e, stopped, failure⟩
    · cases v with
      | none =>
        refine Or.inl ⟨_, ?_, divides.keep verdict⟩
        rw [partition_keep verdict, parted]
        rfl
      | some name =>
        refine Or.inl ⟨_, ?_, divides.drop verdict⟩
        rw [partition_drop verdict, parted]
        rfl
    · refine Or.inr ⟨e, ?_, (firstFailure_cons_ok verdict ms e).mpr failure⟩
      cases v with
      | none => rw [partition_keep verdict, stopped]; rfl
      | some name => rw [partition_drop verdict, stopped]; rfl

variable {i c} {ms : List Mutation}

theorem partition_of_divides {p : Partition} (h : Partition.Divides (i.verdictOn c) ms p) :
    (i.partition c ms).result = .ok p := by
  induction h with
  | nil => rfl
  | keep stays _ ih => rw [partition_keep stays, ih]; rfl
  | drop goes _ ih => rw [partition_drop goes, ih]; rfl

theorem divides_of_partition {p : Partition} (h : (i.partition c ms).result = .ok p) :
    Partition.Divides (i.verdictOn c) ms p := by
  rcases partition_cases i c ms with ⟨p', parted, divides⟩ | ⟨e, stopped, -⟩
  · rw [h] at parted
    exact Except.ok.inj parted ▸ divides
  · rw [h] at stopped
    cases stopped

theorem divides_of_intercept {kept : List Mutation} (h : (i.intercept c ms).result = .ok kept) :
    ∃ p, Partition.Divides (i.verdictOn c) ms p ∧ p.kept = kept := by
  rw [intercept_eq_partition] at h
  cases parted : (i.partition c ms).result with
  | error e =>
    rw [parted] at h
    cases h
  | ok p =>
    rw [parted] at h
    exact ⟨p, divides_of_partition parted, Except.ok.inj h⟩

theorem failure_of_partition {e : Error} (h : (i.partition c ms).result = .error e) :
    FirstFailure (i.verdictOn c) ms e := by
  rcases partition_cases i c ms with ⟨p, parted, -⟩ | ⟨e', stopped, failure⟩
  · rw [h] at parted
    cases parted
  · rw [h] at stopped
    exact Except.error.inj stopped ▸ failure

theorem partition_of_failure {e : Error} (h : FirstFailure (i.verdictOn c) ms e) :
    (i.partition c ms).result = .error e := by
  induction ms with
  | nil => exact absurd h (not_firstFailure_nil e)
  | cons m ms ih =>
    rcases verdict : i.verdictOn c m with e' | (_ | name)
    · rw [partition_fail verdict, (firstFailure_cons_error verdict ms e).mp h]
    · rw [partition_keep verdict, ih ((firstFailure_cons_ok verdict ms e).mp h)]
      rfl
    · rw [partition_drop verdict, ih ((firstFailure_cons_ok verdict ms e).mp h)]
      rfl

theorem partition_ok_iff_verdicts (i : Interceptor) (c : ClassTree) (ms : List Mutation) :
    (∃ p, (i.partition c ms).result = .ok p) ↔ ∀ m ∈ ms, ∃ v, i.verdictOn c m = .ok v := by
  constructor
  · rintro ⟨p, parted⟩
    exact (divides_of_partition parted).verdict_ok
  · intro fine
    rcases partition_cases i c ms with ⟨p, parted, -⟩ | ⟨e, -, failure⟩
    · exact ⟨p, parted⟩
    · obtain ⟨m, hm, fails⟩ := firstFailure_mem failure
      obtain ⟨v, ok⟩ := fine m hm
      rw [fails] at ok
      cases ok

theorem partition_permuted {ms' : List Mutation} (hp : ms.Perm ms') {p : Partition}
    (h : (i.partition c ms).result = .ok p) :
    ∃ p', (i.partition c ms').result = .ok p' ∧ p'.kept.Perm p.kept ∧
      p'.filtered.Perm p.filtered := by
  obtain ⟨p', divides, kept, filtered⟩ := (divides_of_partition h).permuted hp
  exact ⟨p', partition_of_divides divides, kept, filtered⟩

theorem partition_fails_permuted {ms' : List Mutation} (hp : ms.Perm ms')
    (h : ∃ e, (i.partition c ms).result = .error e) :
    ∃ e, (i.partition c ms').result = .error e := by
  obtain ⟨e, stopped⟩ := h
  rcases partition_cases i c ms' with ⟨p', parted, -⟩ | ⟨e', stopped', -⟩
  · obtain ⟨p, parted, -⟩ := partition_permuted hp.symm parted
    rw [stopped] at parted
    cases parted
  · exact ⟨e', stopped'⟩

end Interceptor

end MutantSieve
