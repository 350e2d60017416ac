import MutantSieve.Feature

/-!
# Settings in order

Settings are applied from left to right. The first one that names no feature stops everything, and
of the settings that name one feature the last decides.
-/

set_option autoImplicit false

namespace MutantSieve

def Registry.Names (r : Registry) (name : String) : Prop :=
  ∃ f ∈ r, Text.sameLetters f.feature.name name = true

def Registry.FirstUnknown (r : Registry) (settings : List Setting) (s : Setting) : Prop :=
  ∃ before after, settings = before ++ s :: after ∧ (∀ t ∈ before, r.Names t.name) ∧
    ¬ r.Names s.name

def Setting.LastNaming (name : String) (settings : List Setting) (s : Setting) : Prop :=
  ∃ before after, settings = before ++ s :: after ∧ Text.sameLetters name s.name = true ∧
    ∀ t ∈ after, Text.sameLetters name t.name = false

def Setting.SwitchOff (name : String) (settings : List Setting) : Prop :=
  ∃ s, LastNaming name settings s ∧ s.enabled = false

theorem Setting.lastNaming_iff (name : String) (settings : List Setting) (s : Setting) :
    LastNaming name settings s ↔
      (settings.reverse.find? fun t => Text.sameLetters name t.name) = some s := by
  rw [List.find?_eq_some_iff_append]
  constructor
  · rintro ⟨before, after, rfl, named, rest⟩
    refine ⟨named, after.reverse, before.reverse, by simp, ?_⟩
    intro t ht
    simp [rest t (List.mem_reverse.mp ht)]
  · rintro ⟨named, after, before, split, rest⟩
    refine ⟨before.reverse, after.reverse, ?_, named, ?_⟩
    · have turned := congrArg List.reverse split
      simpa using turned
    · intro t ht
      simpa using rest t (List.mem_reverse.mp ht)

namespace Registry

variable {r : Registry} {settings : List Setting}

theorem knows_iff (r : Registry) (name : String) : r.knows name = true ↔ r.Names name :=
  List.any_eq_true

theorem firstUnknown_iff (r : Registry) (settings : List Setting) (s : Setting) :
    r.FirstUnknown settings s ↔ (settings.find? fun t => !r.knows t.name) = some s := by
  rw [List.find?_eq_some_iff_append]
  simp only [FirstUnknown, ← knows_iff, Bool.not_eq_true, Bool.not_eq_true', Bool.not_not]
  constructor
  · rintro ⟨before, after, split, known, unknown⟩
    exact ⟨unknown, before, after, split, known⟩
  · rintro ⟨unknown, before, after, split, known⟩
    exact ⟨before, after, split, known, unknown⟩

theorem known_or_firstUnknown (r : Registry) (settings : List Setting) :
    (∀ s ∈ settings, r.Names s.name) ∨ ∃ s, r.FirstUnknown settings s := by
  cases found : settings.find? fun t => !r.knows t.name with
  | none =>
    left
    intro s hs
    rw [← knows_iff]
    simpa using List.find?_eq_none.mp found s hs
  | some s => exact Or.inr ⟨s, (firstUnknown_iff r settings s).mpr found⟩

theorem resolve_unknown {s : Setting} (h : r.FirstUnknown settings s) :
    r.resolve settings = .error (.unknownFeature s.name) := by
  rw [resolve, (firstUnknown_iff r settings s).mp h]

theorem resolve_known (known : ∀ s ∈ settings, r.Names s.name) :
    r.resolve settings = .ok (r.map fun f => (f, isOn settings f)) := by
  have found : (settings.find? fun t => !r.knows t.name) = none := by
    rw [List.find?_eq_none]
    intro s hs
    simp [(knows_iff r s.name).mpr (known s hs)]
  rw [resolve, found]

theorem enabled_unknown {s : Setting} (h : r.FirstUnknown settings s) :
    r.enabled settings = .error (.unknownFeature s.name) := by
  rw [enabled, resolve_unknown h]
  rfl

theorem enabled_known (known : ∀ s ∈ settings, r.Names s.name) :
    r.enabled settings = .ok (r.filter (isOn settings)) := by
  rw [enabled, resolve_known known]
  simp only [Except.map, List.filterMap_map]
  rw [← List.filterMap_eq_filter]
  rfl

theorem enabled_ok {fs : List Factory} (h : r.enabled settings = .ok fs) :
    fs = r.filter (isOn settings) := by
  rcases known_or_firstUnknown r settings with known | ⟨s, first⟩
  · rw [enabled_known known] at h
    exact (Except.ok.inj h).symm
  · rw [enabled_unknown first] at h
    cases h

def chainOf (factories : List Factory) : Interceptor :=
  .group "chain" (factories.map Factory.interceptor)

theorem chain_ok {factories : List Factory} (h : r.enabled settings = .ok factories) :
    r.chain settings = .ok (chainOf factories) := by
  rw [chain, h]
  rfl

theorem isOn_last {f : Factory} {s : Setting}
    (h : Setting.LastNaming f.feature.name settings s) : isOn settings f = s.enabled := by
  rw [Setting.lastNaming_iff] at h
  simp only [isOn, Feature.answersTo, h]

theorem isOn_unnamed {f : Factory}
    (h : ∀ s, ¬ Setting.LastNaming f.feature.name settings s) :
    isOn settings f = f.feature.onByDefault := by
  have found : (settings.reverse.find? fun t => Text.sameLetters f.feature.name t.name) = none := by
    rw [Option.eq_none_iff_forall_ne_some]
    intro s named
    exact h s ((Setting.lastNaming_iff _ settings s).mpr named)
  simp only [isOn, Feature.answersTo, found]

theorem isOn_iff_of_default {f : Factory} (default : f.feature.onByDefault = true) :
    isOn settings f = true ↔ ¬ Setting.SwitchOff f.feature.name settings := by
  by_cases named : ∃ s, Setting.LastNaming f.feature.name settings s
  · obtain ⟨s, last⟩ := named
    rw [isOn_last last]
    constructor
    · rintro on ⟨t, last', off⟩
      rw [← isOn_last last', isOn_last last, on] at off
      cases off
    · intro stays
      cases on : s.enabled with
      | true => rfl
      | false => exact absurd ⟨s, last, on⟩ stays
  · have unnamed : ∀ s, ¬ Setting.LastNaming f.feature.name settings s :=
      fun s last => named ⟨s, last⟩
    rw [isOn_unnamed unnamed, default]
    simp only [true_iff]
    rintro ⟨s, last, -⟩
    exact unnamed s last

theorem builtIn_enabled_on (known : ∀ s ∈ settings, builtIn.Names s.name)
    (on : ¬ Setting.SwitchOff "FRETEQUIV" settings) : builtIn.enabled settings = .ok builtIn := by
  have all : ∀ f ∈ builtIn, isOn settings f = true := by
    intro f hf
    cases List.mem_singleton.mp hf
    exact (isOn_iff_of_default rfl).mpr on
  rw [enabled_known known, List.filter_eq_self.mpr all]

theorem builtIn_enabled_off (known : ∀ s ∈ settings, builtIn.Names s.name)
    (off : Setting.SwitchOff "FRETEQUIV" settings) : builtIn.enabled settings = .ok [] := by
  have none_on : ∀ f ∈ builtIn, ¬ isOn settings f = true := by
    intro f hf
    cases List.mem_singleton.mp hf
    exact fun on => (isOn_iff_of_default rfl).mp on off
  rw [enabled_known known, List.filter_eq_nil_iff.mpr none_on]

end Registry

end MutantSieve
