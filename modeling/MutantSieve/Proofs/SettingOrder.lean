import Mathlib.Data.List.Induction
import MutantSieve.Config.Load
import MutantSieve.Proofs.Feature

/-!
# Settings one after another

The state of a factory is looked up in the settings from the last to the first. That is the same as
applying the settings from the first to the last, each one overwriting the state of every factory
that it names. Where two lists are joined, the second one has the last word on the features that it
names, and the first one on all others.
-/

set_option autoImplicit false

namespace MutantSieve

namespace Registry

def defaults (r : Registry) : List (Factory × Bool) := r.map fun f => (f, f.feature.onByDefault)

def overwrite (states : List (Factory × Bool)) (s : Setting) : List (Factory × Bool) :=
  states.map fun state =>
    if Text.sameLetters state.1.feature.name s.name then (state.1, s.enabled) else state

def applyAll (r : Registry) (settings : List Setting) : List (Factory × Bool) :=
  settings.foldl overwrite r.defaults

section States

theorem isOn_concat (settings : List Setting) (s : Setting) (f : Factory) :
    isOn (settings ++ [s]) f =
      if Text.sameLetters f.feature.name s.name then s.enabled else isOn settings f := by
  cases named : Text.sameLetters f.feature.name s.name <;> simp [isOn, Feature.answersTo, named]

theorem map_isOn_concat (r : Registry) (settings : List Setting) (s : Setting) :
    (r.map fun f => (f, isOn (settings ++ [s]) f)) =
      overwrite (r.map fun f => (f, isOn settings f)) s := by
  rw [overwrite, List.map_map]
  apply List.map_congr_left
  intro f _
  rw [isOn_concat, Function.comp_apply]
  cases Text.sameLetters f.feature.name s.name <;> rfl

/-- Looking up from the end finds the states that applying in order leads to. -/
theorem map_isOn (r : Registry) (settings : List Setting) :
    (r.map fun f => (f, isOn settings f)) = r.applyAll settings := by
  induction settings using List.reverseRecOn with
  | nil => rfl
  | append_singleton settings s ih =>
    rw [map_isOn_concat, ih, applyAll, applyAll, List.foldl_append]
    rfl

theorem applyAll_factories (r : Registry) (settings : List Setting) :
    (r.applyAll settings).map Prod.fst = r := by
  rw [← map_isOn, List.map_map]
  exact List.map_id r

theorem isOn_append_unnamed {f : Factory} {later : List Setting}
    (unnamed : ∀ s ∈ later, Text.sameLetters f.feature.name s.name = false)
    (earlier : List Setting) :
    isOn (earlier ++ later) f = isOn earlier f := by
  induction later using List.reverseRecOn with
  | nil => rw [List.append_nil]
  | append_singleton later s ih =>
    have others : ∀ t ∈ later, Text.sameLetters f.feature.name t.name = false :=
      fun t ht => unnamed t (by simp [ht])
    rw [← List.append_assoc, isOn_concat, unnamed s (by simp), ih others]
    rfl

theorem lastNaming_append {name : String} {later : List Setting} {s : Setting}
    (last : Setting.LastNaming name later s) (earlier : List Setting) :
    Setting.LastNaming name (earlier ++ later) s := by
  obtain ⟨before, after, rfl, named, rest⟩ := last
  exact ⟨earlier ++ before, after, by simp, named, rest⟩

end States

section Outcome

variable {r : Registry} {settings : List Setting}

theorem resolve_eq_ok_iff {states : List (Factory × Bool)} :
    r.resolve settings = .ok states ↔
      (∀ s ∈ settings, r.Names s.name) ∧ states = r.applyAll settings := by
  rcases known_or_firstUnknown r settings with known | ⟨s, first⟩
  · rw [resolve_known known, map_isOn, Except.ok.injEq, eq_comm]
    exact (and_iff_right known).symm
  · rw [resolve_unknown first]
    obtain ⟨before, after, rfl, -, unknown⟩ := first
    constructor
    · intro ok
      cases ok
    · rintro ⟨known, -⟩
      exact absurd (known s (by simp)) unknown

theorem resolve_eq_error_iff {e : Error} :
    r.resolve settings = .error e ↔
      ∃ s, r.FirstUnknown settings s ∧ e = .unknownFeature s.name := by
  rcases known_or_firstUnknown r settings with known | ⟨s, first⟩
  · rw [resolve_known known]
    constructor
    · intro failed
      cases failed
    · rintro ⟨s, ⟨before, after, rfl, -, unknown⟩, -⟩
      exact absurd (known s (by simp)) unknown
  · rw [resolve_unknown first]
    constructor
    · intro failed
      exact ⟨s, first, (Except.error.inj failed).symm⟩
    · rintro ⟨t, first', rfl⟩
      have same : some s = some t := by
        rw [← (firstUnknown_iff r settings s).mp first, (firstUnknown_iff r settings t).mp first']
      rw [Option.some.inj same]

end Outcome

end Registry

theorem Setting.parseAll_append (texts more : List String) :
    parseAll (texts ++ more) =
      match parseAll texts with
      | .error e => .error e
      | .ok settings => (parseAll more).map (settings ++ ·) := by
  induction texts with
  | nil =>
    rw [List.nil_append, parseAll]
    cases parseAll more <;> rfl
  | cons text texts ih =>
    rw [List.cons_append, parseAll, parseAll, ih]
    split
    · rfl
    cases parse text with
    | error e => rfl
    | ok s =>
      cases parseAll texts with
      | error e => rfl
      | ok settings => cases parseAll more <;> rfl

theorem Config.parsedSettings_append (c : Config) (toggles : List String)
    (settings : List Setting) :
    parsedSettings { c with settings := c.settings ++ toggles } = .ok settings ↔
      ∃ own added, c.parsedSettings = .ok own ∧ Setting.parseAll toggles = .ok added ∧
        settings = own ++ added := by
  rw [parsedSettings, parsedSettings, Setting.parseAll_append]
  cases Setting.parseAll c.settings with
  | error e => simp
  | ok own => cases Setting.parseAll toggles <;> simp [Except.map, eq_comm]

namespace Registry

/-- Settings are applied in order. The first one that names no feature is reported; otherwise every
factory has the state that overwriting from the first setting to the last leaves it in. Of settings
that are added to those of a configuration, the last mention of a feature decides, and a feature
that they do not name stays as the configuration alone has it. -/
theorem resolve_in_order (r : Registry) :
    (∀ settings e, r.resolve settings = .error e ↔
      ∃ s, r.FirstUnknown settings s ∧ e = .unknownFeature s.name) ∧
    (∀ settings states, r.resolve settings = .ok states ↔
      (∀ s ∈ settings, r.Names s.name) ∧ states = r.applyAll settings) ∧
    (∀ settings, (r.applyAll settings).map Prod.fst = r) ∧
    (∀ own added states, r.resolve (own ++ added) = .ok states →
      ∃ alone, r.resolve own = .ok alone ∧
        ∀ (i : Nat) (f : Factory) (on : Bool), states[i]? = some (f, on) →
          (∀ s, Setting.LastNaming f.feature.name added s → on = s.enabled) ∧
          ((∀ s ∈ added, Text.sameLetters f.feature.name s.name = false) →
            alone[i]? = some (f, on))) ∧
    ∀ (c : Config) (toggles : List String) (settings : List Setting),
      Config.parsedSettings { c with settings := c.settings ++ toggles } = .ok settings ↔
        ∃ own added, c.parsedSettings = .ok own ∧ Setting.parseAll toggles = .ok added ∧
          settings = own ++ added := by
  refine ⟨fun settings e => resolve_eq_error_iff, fun settings states => resolve_eq_ok_iff,
    applyAll_factories r, ?_, Config.parsedSettings_append⟩
  intro own added states resolved
  obtain ⟨known, rfl⟩ := resolve_eq_ok_iff.mp resolved
  have ownKnown : ∀ s ∈ own, r.Names s.name := fun s hs => known s (by simp [hs])
  refine ⟨r.applyAll own, resolve_eq_ok_iff.mpr ⟨ownKnown, rfl⟩, ?_⟩
  intro i f on found
  rw [← map_isOn, List.getElem?_map, Option.map_eq_some_iff] at found
  obtain ⟨g, place, same⟩ := found
  cases same
  constructor
  · intro s last
    exact isOn_last (lastNaming_append last own)
  · intro unnamed
    rw [← map_isOn, List.getElem?_map, place, isOn_append_unnamed unnamed]
    rfl

end Registry

end MutantSieve
