import Mathlib.Data.List.Induction
import Mathlib.Data.List.Nodup
import MutantSieve.Error

/-!
# What a class guarantees

The checks on a list of methods run from its front, each method against the index of those before
it. Read together they say that every method is sound by itself and that the locations are
distinct, so a location names at most one method of a class, and the index leads to it.
-/

set_option autoImplicit false

namespace MutantSieve

structure Method.Sound (name : String) (m : Method) : Prop where
  own : m.location.class = name
  readable : ∃ d, MethodDescriptor.parse m.location.descriptor = .ok d
  fitting : ∀ i ∈ m.instructions, i.fits = true

/-- The first check that a method of the class `name` does not pass behind the methods `earlier`. -/
inductive Method.Refused (name : String) (earlier : List Method) (m : Method) : Check → Prop
  | foreign (other : m.location.class ≠ name) :
      Refused name earlier m (.foreignMethod m.location name)
  | unreadable {fault : MethodDescriptor.Fault} (own : m.location.class = name)
      (bad : MethodDescriptor.parse m.location.descriptor = .error fault) :
      Refused name earlier m (.badDescriptor m.location.descriptor fault)
  | misfit {d : MethodDescriptor} {front back : List Instruction} {i : Instruction}
      (own : m.location.class = name)
      (readable : MethodDescriptor.parse m.location.descriptor = .ok d)
      (body : m.instructions = front ++ i :: back) (fitting : ∀ j ∈ front, j.fits = true)
      (bad : i.fits = false) : Refused name earlier m (.misfit i)
  | duplicate (sound : m.Sound name) (taken : ∃ e ∈ earlier, e.location = m.location) :
      Refused name earlier m (.duplicateMethod m.location)

namespace ClassTree

def Indexes (index : MethodIndex) (ms : List Method) : Prop :=
  ∀ l i, index.lookup l = some i ↔ ∃ m, ms[i]? = some m ∧ m.location = l

theorem indexes_nil : Indexes [] [] := by
  intro l i
  simp

theorem Indexes.lookup_eq_none_iff {index : MethodIndex} {ms : List Method}
    (h : Indexes index ms) (l : Location) :
    index.lookup l = none ↔ ∀ m ∈ ms, m.location ≠ l := by
  constructor
  · intro absent m hm place
    obtain ⟨i, at_i⟩ := List.mem_iff_getElem?.mp hm
    have found := (h l i).mpr ⟨m, at_i, place⟩
    rw [absent] at found
    cases found
  · intro free
    cases found : index.lookup l with
    | none => rfl
    | some i =>
      obtain ⟨m, at_i, place⟩ := (h l i).mp found
      exact absurd place (free m (List.mem_of_getElem? at_i))

theorem Indexes.lookup_isSome_iff {index : MethodIndex} {ms : List Method}
    (h : Indexes index ms) (l : Location) :
    (index.lookup l).isSome = true ↔ ∃ m ∈ ms, m.location = l := by
  rw [Option.isSome_iff_ne_none, ne_eq, h.lookup_eq_none_iff]
  push Not
  rfl

theorem Indexes.append {index : MethodIndex} {ms : List Method} (h : Indexes index ms)
    {m : Method} (fresh : ∀ e ∈ ms, e.location ≠ m.location) :
    Indexes ((m.location, ms.length) :: index) (ms ++ [m]) := by
  intro l i
  by_cases here : l = m.location
  · subst here
    have first : ((m.location, ms.length) :: index).lookup m.location = some ms.length := by simp
    rw [first]
    constructor
    · intro same
      cases same
      exact ⟨m, by simp, rfl⟩
    · rintro ⟨n, at_i, place⟩
      by_cases inside : i < ms.length
      · rw [List.getElem?_append_left inside] at at_i
        exact absurd place (fresh n (List.mem_of_getElem? at_i))
      · have bound := (List.getElem?_eq_some_iff.mp at_i).1
        simp only [List.length_append, List.length_singleton] at bound
        have last : i = ms.length := by omega
        rw [last]
  · have elsewhere : (l == m.location) = false := by simp [here]
    have later : ((m.location, ms.length) :: index).lookup l = index.lookup l := by
      rw [List.lookup_cons, elsewhere]
    rw [later, h l i]
    constructor
    · rintro ⟨n, at_i, place⟩
      have bound := (List.getElem?_eq_some_iff.mp at_i).1
      exact ⟨n, by rw [List.getElem?_append_left bound, at_i], place⟩
    · rintro ⟨n, at_i, place⟩
      by_cases inside : i < ms.length
      · rw [List.getElem?_append_left inside] at at_i
        exact ⟨n, at_i, place⟩
      · rw [List.getElem?_append_right (by omega)] at at_i
        have only := List.mem_of_getElem? at_i
        rw [List.mem_singleton] at only
        rw [only] at place
        exact absurd place.symm here

end ClassTree

theorem find_unfit_eq_none_iff (is : List Instruction) :
    (is.find? fun i => !i.fits) = none ↔ ∀ i ∈ is, i.fits = true := by
  simp [List.find?_eq_none]

section Checks

variable {name : String} {index : MethodIndex} {earlier : List Method} {m : Method}

theorem Method.fault_eq_none_iff (h : ClassTree.Indexes index earlier) :
    m.fault? name index = none ↔ m.Sound name ∧ ∀ e ∈ earlier, e.location ≠ m.location := by
  rw [← h.lookup_eq_none_iff]
  constructor
  · intro passed
    unfold Method.fault? at passed
    split at passed
    · cases passed
    rename_i own
    split at passed
    · cases passed
    rename_i d parsed
    split at passed
    · cases passed
    rename_i fitting
    split at passed
    · cases passed
    rename_i fresh
    rw [find_unfit_eq_none_iff] at fitting
    exact ⟨⟨not_not.mp own, ⟨d, parsed⟩, fitting⟩, Option.not_isSome_iff_eq_none.mp fresh⟩
  · rintro ⟨⟨own, ⟨d, parsed⟩, fitting⟩, fresh⟩
    rw [← find_unfit_eq_none_iff] at fitting
    simp [Method.fault?, own, parsed, fitting, fresh]

theorem Method.fault_eq_some_iff (h : ClassTree.Indexes index earlier) {check : Check} :
    m.fault? name index = some check ↔ m.Refused name earlier check := by
  constructor
  · intro refused
    -- Each test is reached when those before it have been passed.
    unfold Method.fault? at refused
    split at refused
    · rename_i other
      cases refused
      exact .foreign other
    rename_i own
    rw [not_not] at own
    split at refused
    · rename_i fault bad
      cases refused
      exact .unreadable own bad
    rename_i d readable
    split at refused
    · rename_i i found
      cases refused
      obtain ⟨bad, front, back, body, fitting⟩ := List.find?_eq_some_iff_append.mp found
      exact .misfit own readable body (by simpa using fitting) (by simpa using bad)
    rename_i fitting
    split at refused
    · rename_i taken
      cases refused
      rw [find_unfit_eq_none_iff] at fitting
      exact .duplicate ⟨own, ⟨d, readable⟩, fitting⟩ ((h.lookup_isSome_iff _).mp taken)
    · cases refused
  · intro refused
    cases refused with
    | foreign other => simp [Method.fault?, other]
    | unreadable own bad => simp [Method.fault?, own, bad]
    | @misfit d front back i own readable body fitting bad =>
      have found : (m.instructions.find? fun i => !i.fits) = some i := by
        rw [List.find?_eq_some_iff_append]
        exact ⟨by simp [bad], front, back, body, by simpa using fitting⟩
      simp [Method.fault?, own, readable, found]
    | duplicate sound taken =>
      obtain ⟨own, ⟨d, readable⟩, fitting⟩ := sound
      rw [← find_unfit_eq_none_iff] at fitting
      simp [Method.fault?, own, readable, fitting, (h.lookup_isSome_iff _).mpr taken]

end Checks

namespace ClassTree

structure Accepts (name : String) (ms : List Method) : Prop where
  sound : ∀ m ∈ ms, m.Sound name
  distinct : (ms.map Method.location).Nodup

def FirstRefusal (name : String) (ms : List Method) (check : Check) : Prop :=
  ∃ earlier m later, ms = earlier ++ m :: later ∧ Accepts name earlier ∧
    m.Refused name earlier check

section Entering

variable {name : String} {ms : List Method} {index : MethodIndex}

theorem enter_append (index : MethodIndex) (position : Nat) (ms rest : List Method) :
    enter name index position (ms ++ rest) =
      (enter name index position ms).bind fun index =>
        enter name index (position + ms.length) rest := by
  induction ms generalizing index position with
  | nil => rfl
  | cons m ms ih =>
    rw [List.cons_append, enter, enter]
    cases m.fault? name index with
    | some check => rfl
    | none =>
      rw [ih, List.length_cons, Nat.add_assoc, Nat.add_comm 1]

theorem accepts_append_iff (m : Method) :
    Accepts name (ms ++ [m]) ↔
      Accepts name ms ∧ m.Sound name ∧ ∀ e ∈ ms, e.location ≠ m.location := by
  constructor
  · rintro ⟨sound, distinct⟩
    rw [List.map_append, List.map_singleton, List.nodup_append] at distinct
    refine ⟨⟨fun n hn => sound n (by simp [hn]), distinct.1⟩, sound m (by simp), ?_⟩
    intro e he
    exact distinct.2.2 e.location (List.mem_map_of_mem he) m.location (by simp)
  · rintro ⟨⟨sound, distinct⟩, own, fresh⟩
    constructor
    · intro n hn
      rcases List.mem_append.mp hn with hn | hn
      · exact sound n hn
      · rw [List.mem_singleton.mp hn]
        exact own
    · rw [List.map_append, List.map_singleton, List.nodup_append]
      refine ⟨distinct, by simp, ?_⟩
      intro l hl k hk
      obtain ⟨e, he, rfl⟩ := List.mem_map.mp hl
      rw [List.mem_singleton.mp hk]
      exact fresh e he

theorem enter_last (h : enter name [] 0 ms = .ok index) (m : Method) (rest : List Method) :
    enter name [] 0 (ms ++ m :: rest) =
      match m.fault? name index with
      | some check => .error check
      | none => enter name ((m.location, ms.length) :: index) (ms.length + 1) rest := by
  have front : enter name [] 0 (ms ++ m :: rest) =
      enter name index (0 + ms.length) (m :: rest) := by
    rw [enter_append, h]
    rfl
  rw [Nat.zero_add] at front
  exact front

theorem Accepts.enter (h : Accepts name ms) :
    ∃ index, enter name [] 0 ms = .ok index ∧ Indexes index ms := by
  induction ms using List.reverseRecOn with
  | nil => exact ⟨[], rfl, indexes_nil⟩
  | append_singleton ms m ih =>
    obtain ⟨before, sound, fresh⟩ := (accepts_append_iff m).mp h
    obtain ⟨index, entered, indexes⟩ := ih before
    have passes := (Method.fault_eq_none_iff indexes).mpr ⟨sound, fresh⟩
    refine ⟨(m.location, ms.length) :: index, ?_, indexes.append fresh⟩
    rw [enter_last entered, passes]
    rfl

theorem enter_of_firstRefusal {check : Check} (h : FirstRefusal name ms check) :
    ClassTree.enter name [] 0 ms = .error check := by
  obtain ⟨earlier, m, later, rfl, before, refused⟩ := h
  obtain ⟨index, entered, indexes⟩ := before.enter
  rw [enter_last entered, (Method.fault_eq_some_iff indexes).mpr refused]

theorem accepts_or_firstRefusal (name : String) (ms : List Method) :
    Accepts name ms ∨ ∃ check, FirstRefusal name ms check := by
  induction ms using List.reverseRecOn with
  | nil => exact Or.inl ⟨by simp, by simp⟩
  | append_singleton ms m ih =>
    rcases ih with before | ⟨check, earlier, n, later, rfl, before, refused⟩
    · obtain ⟨index, entered, indexes⟩ := before.enter
      cases fault : m.fault? name index with
      | none =>
        have passes := (Method.fault_eq_none_iff indexes).mp fault
        exact Or.inl ((accepts_append_iff m).mpr ⟨before, passes⟩)
      | some check =>
        have refused := (Method.fault_eq_some_iff indexes).mp fault
        exact Or.inr ⟨check, ms, m, [], rfl, before, refused⟩
    · exact Or.inr ⟨check, earlier, n, later ++ [m], by simp, before, refused⟩

theorem accepts_of_enter (h : ClassTree.enter name [] 0 ms = .ok index) :
    Accepts name ms ∧ Indexes index ms := by
  rcases accepts_or_firstRefusal name ms with all | ⟨check, refusal⟩
  · obtain ⟨index', entered, indexes⟩ := all.enter
    rw [h] at entered
    cases entered
    exact ⟨all, indexes⟩
  · rw [enter_of_firstRefusal refusal] at h
    cases h

theorem firstRefusal_of_enter {check : Check} (h : ClassTree.enter name [] 0 ms = .error check) :
    FirstRefusal name ms check := by
  rcases accepts_or_firstRefusal name ms with all | ⟨check', refusal⟩
  · obtain ⟨index, entered, -⟩ := all.enter
    rw [h] at entered
    cases entered
  · rw [enter_of_firstRefusal refusal] at h
    cases h
    exact refusal

end Entering

theorem accepted (c : ClassTree) : Accepts c.name c.methods := (accepts_of_enter c.entered).1

theorem indexes (c : ClassTree) : Indexes c.index c.methods := (accepts_of_enter c.entered).2

theorem method_sound (c : ClassTree) {m : Method} (hm : m ∈ c.methods) : m.Sound c.name :=
  c.accepted.sound m hm

theorem locations_nodup (c : ClassTree) : (c.methods.map Method.location).Nodup :=
  c.accepted.distinct

theorem eq_of_location (c : ClassTree) {m n : Method} (hm : m ∈ c.methods) (hn : n ∈ c.methods)
    (same : m.location = n.location) : m = n :=
  List.inj_on_of_nodup_map c.locations_nodup hm hn same

theorem mem_of_method {c : ClassTree} {l : Location} {m : Method} (found : c.method? l = some m) :
    m ∈ c.methods ∧ m.location = l := by
  obtain ⟨i, at_l, at_i⟩ := Option.bind_eq_some_iff.mp found
  obtain ⟨n, here, place⟩ := (c.indexes l i).mp at_l
  rw [here] at at_i
  cases at_i
  exact ⟨List.mem_of_getElem? here, place⟩

theorem method_eq_some_iff (c : ClassTree) (l : Location) (m : Method) :
    c.method? l = some m ↔ m ∈ c.methods ∧ m.location = l := by
  refine ⟨mem_of_method, ?_⟩
  rintro ⟨hm, place⟩
  obtain ⟨i, at_i⟩ := List.mem_iff_getElem?.mp hm
  have at_l := (c.indexes l i).mpr ⟨m, at_i, place⟩
  rw [method?, at_l, Option.bind_some, at_i]

theorem method_eq_none_iff (c : ClassTree) (l : Location) :
    c.method? l = none ↔ ∀ m ∈ c.methods, m.location ≠ l := by
  constructor
  · intro absent m hm place
    have found := (c.method_eq_some_iff l m).mpr ⟨hm, place⟩
    rw [absent] at found
    cases found
  · intro free
    cases found : c.method? l with
    | none => rfl
    | some m =>
      obtain ⟨hm, place⟩ := mem_of_method found
      exact absurd place (free m hm)

theorem resolve_eq_ok_iff (c : ClassTree) (l : Location) (m : Method) :
    c.resolve l = .ok m ↔ m ∈ c.methods ∧ m.location = l := by
  rw [← method_eq_some_iff, resolve]
  cases c.method? l <;> simp

theorem resolve_eq_error_iff (c : ClassTree) (l : Location) (e : Error) :
    c.resolve l = .error e ↔ e = .unresolved l ∧ ∀ m ∈ c.methods, m.location ≠ l := by
  rw [← method_eq_none_iff, resolve]
  cases c.method? l <;> simp [eq_comm]

end ClassTree

end MutantSieve
