import MutantSieve.Decode.Class
import MutantSieve.Proofs.ClassTree

/-!
# Building classes

A class is built exactly from the methods that pass its checks, and the first method that does not
pass them decides what is reported. In a built class the index and a search through the methods
find the same. Data of the right shape are built from in the same way, except that their methods
take their class from the data, so none of them is foreign.
-/

set_option autoImplicit false

namespace MutantSieve

theorem Method.Refused.own_of_foreign {name : String} {earlier : List Method} {m : Method}
    {l : Location} {other : String} (h : m.Refused name earlier (.foreignMethod l other)) :
    m.location.class ≠ name := by
  cases h with
  | foreign other => exact other

namespace ClassTree

section New

variable {name : String} {ms : List Method}

theorem new_eq_ok_iff {c : ClassTree} : new name ms = .ok c ↔ c.name = name ∧ c.methods = ms := by
  constructor
  · intro built
    unfold new at built
    split at built
    · cases built
      exact ⟨rfl, rfl⟩
    · cases built
  · rintro ⟨rfl, rfl⟩
    obtain ⟨name, methods, index, entered⟩ := c
    unfold new
    split
    · rename_i index' entered'
      rw [entered] at entered'
      cases entered'
      rfl
    · rename_i check refused
      rw [entered] at refused
      cases refused

theorem new_eq_error_iff {check : Check} :
    new name ms = .error check ↔ FirstRefusal name ms check := by
  have entering : new name ms = .error check ↔ enter name [] 0 ms = .error check := by
    unfold new
    split <;> rename_i entered <;> simp [entered]
  rw [entering]
  exact ⟨firstRefusal_of_enter, enter_of_firstRefusal⟩

theorem exists_new_iff : (∃ c, new name ms = .ok c) ↔ Accepts name ms := by
  constructor
  · rintro ⟨c, built⟩
    obtain ⟨rfl, rfl⟩ := new_eq_ok_iff.mp built
    exact c.accepted
  · intro accepts
    obtain ⟨index, entered, -⟩ := accepts.enter
    exact ⟨⟨name, ms, index, entered⟩, new_eq_ok_iff.mpr ⟨rfl, rfl⟩⟩

end New

/-- The search through all methods ends up with what the index leads to. -/
theorem filter_location (c : ClassTree) (l : Location) :
    (c.methods.filter fun m => m.location = l) = (c.method? l).toList := by
  cases found : c.method? l with
  | none =>
    have free := (c.method_eq_none_iff l).mp found
    rw [Option.toList_none, List.filter_eq_nil_iff]
    intro m hm
    simpa using free m hm
  | some m =>
    obtain ⟨hm, place⟩ := mem_of_method found
    have alone : ∀ n ∈ c.methods, decide (n.location = l) = decide (n = m) := by
      intro n hn
      rw [decide_eq_decide]
      constructor
      · intro here
        exact c.eq_of_location hn hm (here.trans place.symm)
      · rintro rfl
        exact place
    have once := List.count_eq_one_of_mem (List.Nodup.of_map _ c.locations_nodup) hm
    rw [List.filter_congr alone, List.filter_eq, once, List.replicate_one, Option.toList_some]

theorem not_foreign (form : Decode.ClassForm) {l : Location} {other : String} :
    ¬ FirstRefusal form.name form.located (.foreignMethod l other) := by
  rintro ⟨earlier, m, later, split, -, refused⟩
  have among : m ∈ form.located := by simp [split]
  obtain ⟨d, -, rfl⟩ := List.mem_map.mp among
  exact refused.own_of_foreign rfl

/-- Building succeeds exactly on methods that pass all checks, and otherwise reports the first check
that the first method at fault does not pass. A built class has the given methods, each of them
found at its location by the index alone. Data of the right shape have the outcome of building from
the methods they declare, and none of these is found foreign. -/
theorem built_by_checks (name : String) (ms : List Method) :
    ((∃ c, new name ms = .ok c) ↔ Accepts name ms) ∧
    (∀ check, new name ms = .error check ↔ FirstRefusal name ms check) ∧
    (∀ c, new name ms = .ok c →
      c.name = name ∧ c.methods = ms ∧ Indexes c.index ms ∧
      ∀ l, (ms.filter fun m => m.location = l) = (c.method? l).toList ∧
        (∀ m, c.resolve l = .ok m ↔ c.method? l = some m) ∧
        ∀ e, c.resolve l = .error e ↔ e = .unresolved l ∧ c.method? l = none) ∧
    ∀ dialect d form, Decode.classForm dialect d = .ok form →
      Decode.classTree dialect d = (new form.name form.located).mapError .rejected ∧
      ∀ l other, Decode.classTree dialect d ≠ .error (.rejected (.foreignMethod l other)) := by
  refine ⟨exists_new_iff, fun check => new_eq_error_iff, ?_, ?_⟩
  · intro c built
    obtain ⟨rfl, rfl⟩ := new_eq_ok_iff.mp built
    refine ⟨rfl, rfl, c.indexes, fun l => ⟨c.filter_location l, fun m => ?_, fun e => ?_⟩⟩
    · rw [resolve_eq_ok_iff, method_eq_some_iff]
    · rw [resolve_eq_error_iff, method_eq_none_iff]
  · intro dialect d form shaped
    have outcome :
        Decode.classTree dialect d = (new form.name form.located).mapError .rejected := by
      rw [Decode.classTree, shaped]
    refine ⟨outcome, fun l other foreign => ?_⟩
    rw [outcome] at foreign
    cases built : new form.name form.located with
    | ok c =>
      rw [built] at foreign
      cases foreign
    | error check =>
      rw [built] at foreign
      cases foreign
      exact not_foreign form (new_eq_error_iff.mp built)

/-- A method at a taken location is first refused for its own body. -/
example :
    new "A" [⟨⟨"A", "run", "()V"⟩, []⟩, ⟨⟨"A", "run", "()V"⟩, [.plain .ldc]⟩] =
      .error (.misfit (.plain .ldc)) := by
  decide +kernel

end ClassTree

end MutantSieve
