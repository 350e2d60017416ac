import MutantSieve.Proofs.Nesting
import MutantSieve.Proofs.Verdict

/-!
# Families in any arrangement

At most one family claims a mutation of a class, and where one family of a mutator lacks the method,
every family of that mutator does. So nothing depends on which family is asked first: the families
may be asked in any order, repeatedly, and in groups of groups, as long as each is asked at all.
-/

set_option autoImplicit false

namespace MutantSieve

theorem find?_of_unique {α : Type} {P : α → Bool} (unique : ∀ a b, P a = true → P b = true → a = b)
    {xs ys : List α} (inXs : ∀ a, P a = true → a ∈ xs) (inYs : ∀ a, P a = true → a ∈ ys) :
    xs.find? P = ys.find? P := by
  cases found : xs.find? P with
  | none =>
    symm
    rw [List.find?_eq_none] at found ⊢
    intro a _ holds
    exact found a (inXs a holds) holds
  | some a =>
    have holds : P a = true := List.find?_some found
    have there : (ys.find? P).isSome = true := List.find?_isSome.mpr ⟨a, inYs a holds, holds⟩
    obtain ⟨b, found'⟩ := Option.isSome_iff_exists.mp there
    rw [found', unique a b holds (List.find?_some found')]

namespace Pattern

def member (p : Pattern) : Filter := { name := p.name, verdict := p.verdict }

section Verdict

variable {c : ClassTree} {m : Mutation}

theorem test_unique {f : Method} (found : c.resolve m.id.location = .ok f) (p q : Pattern)
    (hp : (p.accepts m.id.mutator && p.found ⟨f.instructions, m.id.index.toNat⟩) = true)
    (hq : (q.accepts m.id.mutator && q.found ⟨f.instructions, m.id.index.toNat⟩) = true) :
    p = q := by
  have declared := ((c.resolve_eq_ok_iff _ f).mp found).1
  have fitting := (c.method_sound declared).fitting
  rw [claims_iff] at hp hq
  exact claims_unique fitting hp hq

theorem verdict_unique {p q : Pattern} (hp : p.verdict c m = .ok true)
    (hq : q.verdict c m = .ok true) : p = q := by
  cases resolved : c.resolve m.id.location with
  | ok f =>
    rw [verdict_of_resolved resolved, Except.ok.injEq] at hp hq
    exact test_unique resolved p q hp hq
  | error e =>
    rw [verdict_of_unresolved resolved] at hp
    split at hp <;> cases hp

theorem verdict_fails_alike {p q : Pattern} {e : Error} (failed : p.verdict c m = .error e)
    (family : q.accepts m.id.mutator = true) : q.verdict c m = .error e := by
  cases resolved : c.resolve m.id.location with
  | ok f =>
    rw [verdict_of_resolved resolved] at failed
    cases failed
  | error e' =>
    rw [verdict_of_unresolved resolved] at failed
    rw [verdict_of_unresolved resolved, if_pos family]
    by_cases own : p.accepts m.id.mutator = true
    · rw [if_pos own] at failed
      exact failed
    · rw [if_neg own] at failed
      cases failed

end Verdict

theorem any_of_all {ps : List Pattern} (all : ∀ p, p ∈ ps) (P : Pattern → Bool) :
    ps.any P = Pattern.all.any P := by
  rw [Bool.eq_iff_iff, List.any_eq_true, List.any_eq_true]
  constructor
  · rintro ⟨p, -, holds⟩
    exact ⟨p, p.mem_all, holds⟩
  · rintro ⟨p, -, holds⟩
    exact ⟨p, all p, holds⟩

end Pattern

def Interceptor.ArrangesFamilies (i : Interceptor) : Prop :=
  ∃ ps : List Pattern, (∀ p, p ∈ ps) ∧ i.leaves = ps.map Pattern.member

theorem Interceptor.ArrangesFamilies.verdictOn_eq {i : Interceptor} (h : i.ArrangesFamilies)
    (c : ClassTree) (m : Mutation) : i.verdictOn c m = equivalentReturns.verdictOn c m := by
  obtain ⟨ps, all, leaves⟩ := h
  have members : i.leaves.map filter = ps.map Pattern.interceptor := by
    rw [leaves, List.map_map]
    rfl
  rw [verdictOn_eq_leaves, members]
  change _ = (firstFilter c m (Pattern.all.map Pattern.interceptor)).result
  cases resolved : c.resolve m.id.location with
  | ok f =>
    rw [firstFilter_patterns_ok resolved, firstFilter_patterns_ok resolved,
      find?_of_unique (Pattern.test_unique resolved) (fun p _ => all p) fun p _ => p.mem_all]
  | error e =>
    rw [firstFilter_patterns_error resolved, firstFilter_patterns_error resolved,
      Pattern.any_of_all all]

/-- No two families claim a mutation, and those that its mutator belongs to fail only together. So
the four families give every mutation the same verdict, in any order, with repetitions and however
they are grouped. -/
theorem families_agree (c : ClassTree) (m : Mutation) :
    (∀ p q : Pattern, p.verdict c m = .ok true → q.verdict c m = .ok true → p = q) ∧
    (∀ (p q : Pattern) (e : Error), p.verdict c m = .error e → q.accepts m.id.mutator = true →
      q.verdict c m = .error e) ∧
    ∀ i : Interceptor, i.ArrangesFamilies →
      i.verdictOn c m = equivalentReturns.verdictOn c m := by
  refine ⟨?_, ?_, ?_⟩
  · intro p q hp hq
    exact Pattern.verdict_unique hp hq
  · intro p q e failed family
    exact Pattern.verdict_fails_alike failed family
  · intro i arranged
    exact arranged.verdictOn_eq c m

/-- The families backwards, one of them twice and two of them in a group of their own. -/
example : (Interceptor.group "outer" [Pattern.emptyReturn.interceptor,
    .group "inner" [Pattern.nullReturn.interceptor, Pattern.hardcodedTrue.interceptor],
    Pattern.emptyReturn.interceptor, Pattern.primitiveZero.interceptor]).ArrangesFamilies :=
  ⟨[.emptyReturn, .nullReturn, .hardcodedTrue, .emptyReturn, .primitiveZero],
    fun p => by cases p <;> decide, rfl⟩

end MutantSieve
