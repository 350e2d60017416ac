import Mathlib.Data.List.DropRight
import MutantSieve.Text.Blank

/-!
# Trimming

A text without blanks at its ends is what trimming leaves, so a text that is trimmed once stays as
it is from then on. What trimming takes off are margins of blanks and nothing else.
-/

set_option autoImplicit false

namespace MutantSieve.Text

theorem trimEnd_eq_rdropWhile (s : List Char) : trimEnd s = s.rdropWhile isBlank := rfl

theorem trimStart_trimStart (s : List Char) : trimStart (trimStart s) = trimStart s :=
  List.dropWhile_idempotent isBlank s

theorem trimEnd_trimEnd (s : List Char) : trimEnd (trimEnd s) = trimEnd s :=
  List.rdropWhile_idempotent isBlank s

theorem trimStart_of_prefix {s t : List Char} (front : s <+: t) (h : trimStart t = t) :
    trimStart s = s := by
  rw [trimStart, List.dropWhile_eq_self_iff] at h ⊢
  intro filled
  have longer : 0 < t.length := Nat.lt_of_lt_of_le filled front.length_le
  rw [front.getElem filled]
  exact h longer

theorem trim_trim (s : List Char) : trim (trim s) = trim s := by
  have start : trimStart (trim s) = trim s :=
    trimStart_of_prefix (List.rdropWhile_prefix isBlank _) (trimStart_trimStart s)
  calc trim (trim s) = trimEnd (trimStart (trim s)) := rfl
    _ = trimEnd (trim s) := by rw [start]
    _ = trim s := trimEnd_trimEnd (trimStart s)

def AllBlank (s : List Char) : Prop := ∀ c ∈ s, isBlank c = true

theorem exists_margins (s : List Char) :
    ∃ before after, s = before ++ trim s ++ after ∧ AllBlank before ∧ AllBlank after := by
  refine ⟨s.takeWhile isBlank, (trimStart s).rtakeWhile isBlank, ?_, ?_, ?_⟩
  · have back : trim s ++ (trimStart s).rtakeWhile isBlank = trimStart s :=
      List.rdropWhile_append_rtakeWhile
    rw [List.append_assoc, back]
    exact List.takeWhile_append_dropWhile.symm
  · exact fun c hc => List.mem_takeWhile_imp hc
  · exact fun c hc => List.mem_rtakeWhile_imp hc

theorem trim_margins {before after s : List Char} (front : AllBlank before) (back : AllBlank after)
    (filled : s ≠ []) (starts : isBlank (s.head filled) = false)
    (ends : isBlank (s.getLast filled) = false) : trim (before ++ s ++ after) = s := by
  have start : trimStart (before ++ (s ++ after)) = s ++ after := by
    rw [trimStart, List.dropWhile_append_of_pos front]
    cases s with
    | nil => exact absurd rfl filled
    | cons c rest => simpa using starts
  have turned : ∀ c ∈ after.reverse, isBlank c = true :=
    fun c hc => back c (List.mem_reverse.mp hc)
  have stop : trimEnd (s ++ after) = s.rdropWhile isBlank := by
    rw [trimEnd, List.reverse_append, List.dropWhile_append_of_pos turned]
    rfl
  have whole : s.rdropWhile isBlank = s := by
    rw [List.rdropWhile_eq_self_iff]
    intro filled'
    simpa using ends
  rw [trim, List.append_assoc, start, stop, whole]

theorem trim_of_visible {s : List Char} (h : ∀ c ∈ s, isBlank c = false) : trim s = s := by
  have start : trimStart s = s := by
    rw [trimStart, List.dropWhile_eq_self_iff]
    intro filled
    simp [h _ (List.getElem_mem filled)]
  rw [trim, start, trimEnd_eq_rdropWhile, List.rdropWhile_eq_self_iff]
  intro filled
  simp [h _ (List.getLast_mem filled)]

theorem trimmed_trimmed (s : String) : trimmed (trimmed s) = trimmed s := by
  rw [trimmed, trimmed, String.toList_ofList, trim_trim]

theorem trimmed_of_visible {s : String} (h : ∀ c ∈ s.toList, isBlank c = false) :
    trimmed s = s := by
  rw [trimmed, trim_of_visible h, String.ofList_toList]

end MutantSieve.Text
