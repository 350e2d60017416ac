import MutantSieve.Proofs.Batch
import MutantSieve.Proofs.Feature

/-!
# More features

The chain of the features that are on asks them in the order of registration, whatever the order of
the settings. A mutation stays if every one of them lets it pass. So where more features are on,
and both chains get through a batch, no more mutations stay, and each that is dropped is dropped by
the first feature that is on and drops it.
-/

set_option autoImplicit false

namespace MutantSieve

namespace Partition.Divides

variable {verdict verdict' : Mutation → Except Error (Option String)} {ms : List Mutation}
  {p p' : Partition}

theorem kept_eq_filter (h : Divides verdict ms p) :
    p.kept = ms.filter fun m => verdict m = .ok none := by
  induction h with
  | nil => rfl
  | keep stays _ ih => simp [stays, ih]
  | drop goes _ ih => simp [goes, ih]

theorem dropped_eq_filter (h : Divides verdict ms p) :
    p.filtered.map FilteredMutation.mutation = ms.filter fun m => verdict m ≠ .ok none := by
  induction h with
  | nil => rfl
  | keep stays _ ih => simp [stays, ih]
  | drop goes _ ih => simp [goes, ih]

theorem kept_mono (h : Divides verdict ms p) (h' : Divides verdict' ms p')
    (stricter : ∀ m, verdict' m = .ok none → verdict m = .ok none) : p'.kept.Sublist p.kept := by
  rw [h.kept_eq_filter, h'.kept_eq_filter]
  apply List.monotone_filter_right
  simpa using stricter

theorem dropped_mono (h : Divides verdict ms p) (h' : Divides verdict' ms p')
    (stricter : ∀ m, verdict' m = .ok none → verdict m = .ok none) :
    (p.filtered.map FilteredMutation.mutation).Sublist
      (p'.filtered.map FilteredMutation.mutation) := by
  rw [h.dropped_eq_filter, h'.dropped_eq_filter]
  apply List.monotone_filter_right
  intro m goes
  simp only [decide_eq_true_eq] at goes ⊢
  exact mt (stricter m) goes

theorem mem_filtered {m : Mutation} {name : String} (h : Divides verdict ms p) (hm : m ∈ ms)
    (goes : verdict m = .ok (some name)) : ⟨m, name⟩ ∈ p.filtered := by
  induction h with
  | nil => cases hm
  | keep stays _ ih =>
    rcases List.mem_cons.mp hm with rfl | hm
    · rw [stays] at goes
      cases goes
    · exact ih hm
  | drop named _ ih =>
    rcases List.mem_cons.mp hm with rfl | hm
    · rw [named] at goes
      cases goes
      exact List.mem_cons_self
    · exact List.mem_cons_of_mem _ (ih hm)

end Partition.Divides

namespace Registry

/-- The first of some factories that drops a mutation, and the filter of it that is named. Those
before it let the mutation pass. -/
def FirstToDrop (on : List Factory) (c : ClassTree) (m : Mutation) (f : Factory) (name : String) :
    Prop :=
  ∃ front behind, on = front ++ f :: behind ∧
    (∀ g ∈ front, g.interceptor.verdictOn c m = .ok none) ∧
    f.interceptor.verdictOn c m = .ok (some name)

section Chains

variable {c : ClassTree} {m : Mutation} {f : Factory} {fs : List Factory}

theorem chainOf_pass (passes : f.interceptor.verdictOn c m = .ok none) (fs : List Factory) :
    (chainOf (f :: fs)).verdictOn c m = (chainOf fs).verdictOn c m :=
  Traced.andThen_ok _ passes

theorem chainOf_stop (stops : f.interceptor.verdictOn c m ≠ .ok none) (fs : List Factory) :
    (chainOf (f :: fs)).verdictOn c m = f.interceptor.verdictOn c m := by
  rcases answer : f.interceptor.verdictOn c m with e | (_ | name)
  · exact Traced.andThen_error _ answer
  · exact absurd answer stops
  · exact Traced.andThen_ok _ answer

theorem chainOf_passes_iff :
    (chainOf fs).verdictOn c m = .ok none ↔
      ∀ f ∈ fs, f.interceptor.verdictOn c m = .ok none := by
  induction fs with
  | nil => exact ⟨fun _ f hf => (nomatch hf), fun _ => rfl⟩
  | cons f fs ih =>
    by_cases passes : f.interceptor.verdictOn c m = .ok none
    · simp [chainOf_pass passes, ih, passes]
    · simp [chainOf_stop passes, passes]

theorem exists_firstToDrop {name : String}
    (drops : (chainOf fs).verdictOn c m = .ok (some name)) : ∃ f, FirstToDrop fs c m f name := by
  induction fs with
  | nil => cases drops
  | cons g fs ih =>
    by_cases passes : g.interceptor.verdictOn c m = .ok none
    · rw [chainOf_pass passes] at drops
      obtain ⟨f, front, behind, rfl, others, named⟩ := ih drops
      exact ⟨f, g :: front, behind, rfl, List.forall_mem_cons.mpr ⟨passes, others⟩, named⟩
    · rw [chainOf_stop passes] at drops
      exact ⟨g, [], fs, rfl, by simp, drops⟩

theorem firstToDrop_of_subset {fs' : List Factory} (more : ∀ f ∈ fs, f ∈ fs') {name : String}
    {v : Option String} (drops : (chainOf fs).verdictOn c m = .ok (some name))
    (answers : (chainOf fs').verdictOn c m = .ok v) :
    ∃ f name', FirstToDrop fs' c m f name' ∧ v = some name' := by
  cases v with
  | none =>
    have all := chainOf_passes_iff.mp answers
    have passes := chainOf_passes_iff.mpr fun f hf => all f (more f hf)
    rw [drops] at passes
    cases passes
  | some name' =>
    obtain ⟨f, first⟩ := exists_firstToDrop answers
    exact ⟨f, name', first, rfl⟩

end Chains

variable {r : Registry} {settings settings' : List Setting} {fs fs' : List Factory}

theorem isOn_of_feature {f g : Factory} (same : f.feature = g.feature) (settings : List Setting) :
    isOn settings f = isOn settings g := by
  rw [isOn, isOn, same]

theorem mem_of_wider (on : r.enabled settings = .ok fs) (on' : r.enabled settings' = .ok fs')
    (wider : ∀ f ∈ fs, f.feature ∈ fs'.map Factory.feature) : ∀ f ∈ fs, f ∈ fs' := by
  intro f hf
  obtain ⟨g, hg, same⟩ := List.mem_map.mp (wider f hf)
  rw [enabled_ok on, List.mem_filter] at hf
  rw [enabled_ok on', List.mem_filter, isOn_of_feature same] at hg
  rw [enabled_ok on', List.mem_filter]
  exact ⟨hf.1, hg.2⟩

/-- With more features on, no more mutations stay. Where the settings leave on all features that
others leave on, and both chains get through a batch, the mutations that stay are among those that
stay under the others, in their order. Each that is dropped under the others is dropped again, by
the first feature that is on, in the order of registration, and drops it. -/
theorem wider_settings_keep_less (on : r.enabled settings = .ok fs)
    (on' : r.enabled settings' = .ok fs')
    (wider : ∀ f ∈ fs, f.feature ∈ fs'.map Factory.feature) :
    ∃ chain chain', r.chain settings = .ok chain ∧ r.chain settings' = .ok chain' ∧
      fs'.Sublist r ∧
      ∀ (c : ClassTree) (ms : List Mutation),
        (∀ kept kept', (chain.intercept c ms).result = .ok kept →
          (chain'.intercept c ms).result = .ok kept' → kept'.Sublist kept) ∧
        ∀ p p', (chain.partition c ms).result = .ok p → (chain'.partition c ms).result = .ok p' →
          p'.kept.Sublist p.kept ∧
          (p.filtered.map FilteredMutation.mutation).Sublist
            (p'.filtered.map FilteredMutation.mutation) ∧
          ∀ d ∈ p.filtered, ∃ f name, FirstToDrop fs' c d.mutation f name ∧
            ⟨d.mutation, name⟩ ∈ p'.filtered := by
  have more := mem_of_wider on on' wider
  refine ⟨chainOf fs, chainOf fs', chain_ok on, chain_ok on', ?_, fun c ms => ?_⟩
  · rw [enabled_ok on']
    exact List.filter_sublist
  have stricter (m : Mutation) (passes : (chainOf fs').verdictOn c m = .ok none) :
      (chainOf fs).verdictOn c m = .ok none :=
    chainOf_passes_iff.mpr fun f hf => chainOf_passes_iff.mp passes f (more f hf)
  constructor
  · intro kept kept' done done'
    obtain ⟨p, divides, rfl⟩ := Interceptor.divides_of_intercept done
    obtain ⟨p', divides', rfl⟩ := Interceptor.divides_of_intercept done'
    exact divides.kept_mono divides' stricter
  · intro p p' parted parted'
    have divides := Interceptor.divides_of_partition parted
    have divides' := Interceptor.divides_of_partition parted'
    refine ⟨divides.kept_mono divides' stricter, divides.dropped_mono divides' stricter, ?_⟩
    intro d hd
    have member : d.mutation ∈ ms := divides.filtered_sublist.subset (List.mem_map_of_mem hd)
    obtain ⟨v, answers⟩ := divides'.verdict_ok d.mutation member
    obtain ⟨f, name, first, rfl⟩ :=
      firstToDrop_of_subset more (divides.filtered_verdict d hd) answers
    exact ⟨f, name, first, divides'.mem_filtered member answers⟩

def dropping (feature filter : String) (places : Nat) : Factory where
  feature := { name := feature }
  description := ""
  interceptor := .filter { name := filter, verdict := fun _ m => .ok (m.id.index.toNat < places) }

def nestedFeatures : Registry := [dropping "FONE" "one" 1, dropping "FTWO" "two" 2]

def mutationAt (index : UInt64) : Mutation :=
  { id := ⟨⟨"com/example/Sample", "value", "()I"⟩, index, .nullReturns⟩ }

/-- Switched on last, the feature that was registered first is asked first. -/
theorem nestedFeatures_dropped :
    nestedFeatures.enabled [⟨"FTWO", true⟩] = .ok [dropping "FTWO" "two" 2] ∧
      nestedFeatures.enabled [⟨"FTWO", true⟩, ⟨"FONE", true⟩] = .ok nestedFeatures ∧
      ((chainOf [dropping "FTWO" "two" 2]).partition (.empty "com/example/Sample")
        [mutationAt 0, mutationAt 2]).result = .ok ⟨[mutationAt 2], [⟨mutationAt 0, "two"⟩]⟩ ∧
      ∃ f, FirstToDrop nestedFeatures (.empty "com/example/Sample") (mutationAt 0) f "one" := by
  have on : nestedFeatures.enabled [⟨"FTWO", true⟩] = .ok [dropping "FTWO" "two" 2] := rfl
  have on' : nestedFeatures.enabled [⟨"FTWO", true⟩, ⟨"FONE", true⟩] = .ok nestedFeatures := rfl
  have parted : ((chainOf [dropping "FTWO" "two" 2]).partition (.empty "com/example/Sample")
      [mutationAt 0, mutationAt 2]).result = .ok ⟨[mutationAt 2], [⟨mutationAt 0, "two"⟩]⟩ := rfl
  have parted' : ((chainOf nestedFeatures).partition (.empty "com/example/Sample")
      [mutationAt 0, mutationAt 2]).result = .ok ⟨[mutationAt 2], [⟨mutationAt 0, "one"⟩]⟩ := rfl
  obtain ⟨chain, chain', built, built', -, compared⟩ :=
    wider_settings_keep_less on on' (by decide)
  rw [chain_ok on] at built
  rw [chain_ok on'] at built'
  cases built
  cases built'
  obtain ⟨-, -, again⟩ := (compared _ _).2 _ _ parted parted'
  obtain ⟨f, name, first, listed⟩ := again ⟨mutationAt 0, "two"⟩ (List.mem_singleton_self _)
  cases List.mem_singleton.mp listed
  exact ⟨on, on', parted, f, first⟩

end Registry

end MutantSieve
