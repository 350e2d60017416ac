import MutantSieve.CommandLine.Invocation

/-!
# Values of the command line

A switch is taken in only with values that pass its check, and nothing else adds to what was found.
So the values of every invocation have passed their checks.
-/

set_option autoImplicit false

namespace MutantSieve.CommandLine

namespace Scan

def Sound (s : Scan) : Prop := ∀ f ∈ s.found, ∀ value ∈ f.2, valueFault? f.1 value = none

theorem sound_empty : Sound {} := fun _ member => nomatch member

theorem Sound.value {s : Scan} (sound : s.Sound) {w : Switch} {value : String}
    (member : value ∈ s.values w) : valueFault? w value = none := by
  rw [values, List.mem_flatMap] at member
  obtain ⟨f, found, there⟩ := member
  rw [List.mem_filter, decide_eq_true_eq] at found
  rw [← found.2]
  exact sound f found.1 value there

variable {s s' : Scan} {l : Level} {w : Switch} {a : Option Switch}

theorem Sound.accept {texts : List String} (sound : s.Sound) (h : s.accept w texts = .ok s') :
    s'.Sound := by
  rw [Scan.accept] at h
  split at h
  · cases h
  split at h
  · cases h
  split at h
  · cases h
  split at h
  · cases h
  dsimp only at h
  split at h
  · cases h
  · next passed =>
    cases h
    intro f member
    rcases List.mem_append.mp member with old | new
    · exact sound f old
    · rw [List.mem_singleton] at new
      subst new
      exact List.findSome?_eq_none_iff.mp passed

theorem Sound.wait (sound : s.Sound) (p : Option (Switch × List String)) :
    Sound { s with pending := p } := sound

theorem Sound.settle (sound : s.Sound) (h : s.settle = .ok s') : s'.Sound := by
  rw [Scan.settle] at h
  cases waiting : s.pending with
  | none =>
    rw [waiting] at h
    cases h
    exact sound
  | some p =>
    rw [waiting] at h
    exact (sound.wait none).accept h

theorem Sound.meet {texts : List String} (sound : s.Sound) (h : s.meet w texts = .ok s') :
    s'.Sound := by
  rw [Scan.meet] at h
  cases settled : s.settle with
  | error halt =>
    rw [settled] at h
    cases h
  | ok t =>
    rw [settled] at h
    exact (sound.settle settled).accept h

theorem Sound.await (sound : s.Sound) (h : s.await w = .ok (s', a)) : s'.Sound := by
  rw [Scan.await] at h
  cases settled : s.settle with
  | error halt =>
    rw [settled] at h
    cases h
  | ok t =>
    rw [settled] at h
    cases h
    exact (sound.settle settled).wait _

theorem Sound.met {texts : List String} (sound : s.Sound)
    (h : met (s.meet w texts) = .ok (s', a)) : s'.Sound := by
  rw [Scan.met] at h
  cases taken : s.meet w texts with
  | error halt =>
    rw [taken] at h
    cases h
  | ok t =>
    rw [taken] at h
    cases h
    exact sound.meet taken

theorem Sound.long {body : List Char} (sound : s.Sound) (h : long l s body = .ok (s', a)) :
    s'.Sound := by
  rw [Scan.long] at h
  split at h
  · cases h
  · split at h
    · exact sound.await h
    · exact sound.met h
  · split at h
    · exact sound.met h
    · cases h

theorem Sound.short {letters : List Char} (sound : s.Sound)
    (h : short l s letters = .ok (s', a)) : s'.Sound := by
  induction letters generalizing s with
  | nil =>
    cases h
    exact sound
  | cons c rest ih =>
    rw [Scan.short] at h
    split at h
    · cases h
    split at h
    · split at h
      · exact sound.await h
      · exact sound.met h
      · exact sound.met h
    · split at h
      · next taken => exact ih (sound.meet taken) h
      · cases h

theorem Sound.plain {literal : Bool} {arg : String} (sound : s.Sound)
    (h : s.plain l literal arg = .ok s') : s'.Sound := by
  rw [Scan.plain] at h
  split at h
  · split at h
    · cases h
      exact sound
    · cases settled : s.settle with
      | error halt =>
        rw [settled] at h
        cases h
      | ok t =>
        rw [settled] at h
        cases h
        exact (sound.settle settled).wait _
  · split at h
    · split at h <;> cases h
    · cases h

theorem Sound.dashed {arg : List Char} (sound : s.Sound)
    (h : (match arg with
      | '-' :: '-' :: body => Scan.long l s body
      | body => Scan.short l s (body.drop 1)) = .ok (s', a)) : s'.Sound := by
  split at h
  · exact sound.long h
  · exact sound.short h

/-- The induction is on the arguments, whose scan may stop at a command. -/
theorem Sound.run {literal : Bool} {awaiting : Option Switch} {args : List String}
    {c : Option (CommandName × List String)} (sound : s.Sound)
    (h : run l s literal awaiting args = .ok (s', c)) : s'.Sound := by
  induction args generalizing s literal awaiting with
  | nil =>
    cases h
    exact sound
  | cons arg rest ih =>
    rw [Scan.run.eq_def] at h
    dsimp only at h
    split at h
    · split at h
      · next taken => exact ih (sound.plain taken) h
      · cases h
    split at h
    · split at h
      · exact ih (sound.wait _) h
      split at h
      · exact ih sound h
      split at h
      · next taken => exact ih (sound.dashed taken) h
      · cases h
    · split at h
      · cases h
      split at h
      · cases h
        exact sound
      split at h
      · exact ih sound h
      split at h
      · split at h
        · next taken => exact ih (sound.dashed taken) h
        · cases h
      · split at h
        · next taken => exact ih (sound.plain taken) h
        · cases h

end Scan

theorem sound_of_read {args : List String} {i : Invocation} (h : read args = .ok i) :
    ∃ (s : Scan) (command : Command), s.Sound ∧ i = invocationOf s command := by
  rw [read] at h
  split at h
  · cases h
  · next scanned =>
    split at h
    · cases h
    split at h
    · cases h
    · next settled =>
      cases h
      exact ⟨_, _, (Scan.sound_empty.run scanned).settle settled, rfl⟩
  · split at h <;> cases h

theorem path_ne_empty {args : List String} {i : Invocation} (h : read args = .ok i) :
    i.path ≠ "" := by
  obtain ⟨s, command, sound, rfl⟩ := sound_of_read h
  show (s.values .path).head?.getD "." ≠ ""
  cases given : (s.values .path).head? with
  | none => decide
  | some path =>
    have passed := sound.value (List.mem_of_head? given)
    rintro (rfl : path = "")
    cases passed

end MutantSieve.CommandLine
