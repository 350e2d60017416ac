import MutantSieve.Binary.Text
import MutantSieve.Proofs.Decimal
import MutantSieve.Proofs.Json.Numeral

/-!
# Decimals in JSON text

The notation of a decimal is a number of the grammar. It is read into the coefficient and the
exponent, except that a whole number in positional notation is read with its zeros and one place
more.
-/

set_option autoImplicit false

namespace MutantSieve

namespace Text

theorem le_readDigits (n : Nat) (s : List Char) : n ≤ readDigits n s := by
  induction s generalizing n with
  | nil => exact Nat.le_refl n
  | cons c r ih =>
    rw [readDigits_cons]
    exact Nat.le_trans (by omega) (ih _)

theorem readDigits_zeros (n k : Nat) : readDigits n (Decimal.zeros k) = n * 10 ^ k := by
  induction k generalizing n with
  | zero => exact (Nat.mul_one n).symm
  | succ k ih =>
    rw [Decimal.zeros, List.replicate_succ, readDigits_cons]
    rw [Decimal.zeros] at ih
    rw [ih, Nat.pow_succ', show digitValue '0' = 0 from rfl, Nat.zero_add, ← Nat.mul_assoc,
      Nat.mul_comm 10 n]

theorem digits_length (n : Nat) : n < 10 ^ (digits n).length := by
  fun_induction digits n with
  | case1 n small => simpa using small
  | case2 n large ih =>
    rw [List.length_append, List.length_singleton, Nat.pow_succ]
    omega

theorem digits_length_le {n k : Nat} (h : n < 10 ^ (k + 1)) : (digits n).length ≤ k + 1 := by
  induction k generalizing n with
  | zero =>
    rw [digits, if_pos (by omega), List.length_singleton]
  | succ k ih =>
    rw [digits]
    split
    · rw [List.length_singleton]
      omega
    · rw [List.length_append, List.length_singleton]
      have tenth := ih (n := n / 10) (by rw [Nat.pow_succ] at h; omega)
      omega

end Text

namespace Json

open Text

section Runs

theorem absorb_run (n : Nat) (ds : List Char) (h : readDigits n ds ≤ largest) :
    absorb n ds = (readDigits n ds, []) := by
  induction ds generalizing n with
  | nil => rfl
  | cons c r ih =>
    rw [readDigits_cons, Nat.add_comm] at h
    have fits := Nat.le_trans (le_readDigits _ r) h
    rw [absorb, if_neg (by omega), ih _ h, readDigits_cons, Nat.add_comm]

variable {p : Parts}

theorem value_of_run (marked : p.fraction ≠ none ∨ p.exponent ≠ none)
    (h : readDigits 0 (p.whole ++ p.fraction.getD []) ≤ largest) :
    p.value = raised p.negative (readDigits 0 (p.whole ++ p.fraction.getD []))
      (-((p.fraction.getD []).length : Int)) p.exponent := by
  rw [readDigits_append] at h ⊢
  have whole := absorb_run 0 p.whole (Nat.le_trans (le_readDigits _ _) h)
  have rest := absorb_run _ _ h
  unfold Parts.value
  simp only [whole]
  split
  · rename_i noFraction noExponent
    exact absurd marked (by simp [noFraction, noExponent])
  · simp [rest]

theorem isRun_append {s t : List Char} (left : IsRun s) (right : ∀ c ∈ t, isDigit c = true) :
    IsRun (s ++ t) := by
  refine ⟨List.append_ne_nil_of_left_ne_nil left.1 t, fun c inside => ?_⟩
  rcases List.mem_append.mp inside with inside | inside
  · exact left.2 c inside
  · exact right c inside

theorem zeros_isDigit (k : Nat) : ∀ c ∈ Decimal.zeros k, isDigit c = true := by
  intro c inside
  rw [List.eq_of_mem_replicate inside]
  rfl

end Runs

end Json

namespace Decimal

open Text Json

def first (d : Decimal) : Int := d.exponent + Int.ofNat (digits d.coefficient).length - 1

def spelled (p : Positional) (d : Decimal) : Nat × Int :=
  if d.coefficient = 0 then (0, -1)
  else if p.first ≤ d.first ∧ d.first ≤ p.last ∧ 0 ≤ d.exponent then
    (d.coefficient * 10 ^ (d.exponent.toNat + 1), -1)
  else (d.coefficient, d.exponent)

/-- A text without its sign is that of a number. It is read into two parts, provided that these are
not out of range. -/
def Spells (inRange : Prop) (s : List Char) (significand : Nat) (e : Int) : Prop :=
  ∀ negative, ∃ n : Number, n.parts.negative = negative ∧ n.unsigned = s ∧
    (inRange → n.parts.value = fromParts negative significand e)

section Notated

variable {d : Decimal} {s t : List Char} {significand : Nat} {e : Int}

theorem Spells.text {inRange : Prop} (h : Spells inRange s significand e) (negative : Bool) :
    ∃ n : Number, n.text = Binary.signed negative s ∧
      (inRange → n.parts.value = fromParts negative significand e) := by
  obtain ⟨n, sign, rfl, value⟩ := h negative
  exact ⟨n, by rw [Number.text, sign, Binary.signed], value⟩

theorem spells_point (whole : IsRun s) (fraction : IsRun t)
    (leading : s.head? = some '0' → s.length = 1) (value : readDigits 0 (s ++ t) = significand) :
    Spells (significand ≤ largest) (s ++ '.' :: t) significand (-(t.length : Int)) := by
  intro negative
  refine ⟨⟨⟨negative, s, some t, none⟩, false, false, whole, leading, ?_, by simp⟩, rfl, ?_,
    fun fits => ?_⟩
  · simpa using fraction
  · simp [Number.unsigned, Number.fractionText, Number.exponentText]
  · rw [← value] at fits ⊢
    exact value_of_run (.inl (by simp)) fits

theorem spells_exponent {c : Char} (digit : isDigit c = true) (fraction : ∀ x ∈ t, isDigit x = true)
    (value : readDigits 0 (c :: t) = significand) :
    Spells (significand ≤ largest ∧ e.natAbs ≤ largestExponent)
      (c :: (if t = [] then [] else '.' :: t) ++
        'e' :: (if 0 ≤ e then '+' else '-') :: digits e.natAbs) significand (e - t.length) := by
  intro negative
  refine ⟨⟨⟨negative, [c], if t = [] then none else some t,
    some (decide (e < 0), digits e.natAbs)⟩, false, true, ?_, fun _ => rfl, ?_, ?_⟩, rfl, ?_, ?_⟩
  · exact ⟨by simp, by simpa using digit⟩
  · intro ds inside
    simp only at inside
    split at inside
    · cases inside
    · cases inside
      exact ⟨‹_›, fraction⟩
  · intro x inside
    cases inside
    exact isRun_digits _
  · rw [Number.unsigned]
    by_cases down : e < 0 <;> by_cases bare : t = [] <;>
      simp [Number.fractionText, Number.exponentText, down, bare, Int.not_le.mpr, Int.not_lt.mp]
  · rintro ⟨fits, small⟩
    have taken : (if t = [] then none else some t).getD [] = t := by
      split
      · exact Eq.symm ‹_›
      · rfl
    rw [value_of_run (.inr (by simp)) (by rw [taken]; simpa [value] using fits)]
    simp only [taken, List.singleton_append, value, raised, readDigits_digits]
    rw [if_neg (by omega)]
    congr 1
    split <;> rename_i sign
    · have := of_decide_eq_true sign
      omega
    · have := of_decide_eq_false (Bool.eq_false_iff.mpr sign)
      omega

theorem digits_head (filled : d.coefficient ≠ 0) : (digits d.coefficient).head? ≠ some '0' :=
  fun zero => filled (digits_leading_zero zero)

theorem spells_plain (filled : d.coefficient ≠ 0) (broken : d.exponent < 0) :
    Spells (d.coefficient ≤ largest) d.plain d.coefficient d.exponent := by
  have run := isRun_digits d.coefficient
  have read := readDigits_digits d.coefficient
  unfold plain
  simp only [if_neg (show ¬ 0 ≤ d.exponent by omega), Int.ofNat_eq_natCast]
  split
  · -- The point stands between two of the digits.
    rename_i inside
    generalize point : (d.exponent + (digits d.coefficient).length).toNat = k
    have split : (digits d.coefficient).take k ++ (digits d.coefficient).drop k =
        digits d.coefficient := List.take_append_drop _ _
    have before : 0 < k := by omega
    have behind : k < (digits d.coefficient).length := by omega
    have length : -(((digits d.coefficient).drop k).length : Int) = d.exponent := by
      rw [List.length_drop]
      omega
    rw [← length]
    refine spells_point ⟨?_, fun c h => run.2 c (List.mem_of_mem_take h)⟩
      ⟨?_, fun c h => run.2 c (List.mem_of_mem_drop h)⟩ (fun zero => ?_) (by rw [split, read])
    · rw [← List.length_pos_iff, List.length_take]
      omega
    · rw [← List.length_pos_iff, List.length_drop]
      omega
    · rw [List.head?_take, if_neg (by omega)] at zero
      exact absurd zero (digits_head filled)
  · -- The digits all stand behind the point, and behind some zeros.
    rename_i beyond
    have length : -((zeros (-(d.exponent + (digits d.coefficient).length)).toNat ++
        digits d.coefficient).length : Int) = d.exponent := by
      rw [List.length_append, zeros, List.length_replicate]
      omega
    have zero : readDigits 0 (['0'] ++
        (zeros (-(d.exponent + (digits d.coefficient).length)).toNat ++ digits d.coefficient)) =
          d.coefficient := by
      rw [readDigits_append, readDigits_append, show readDigits 0 ['0'] = 0 from rfl,
        readDigits_zeros, Nat.zero_mul, read]
    have spelled := spells_point (s := ['0']) ⟨by simp, by simp [isDigit]⟩ ⟨?_, ?_⟩ (fun _ => rfl)
      zero
    · rw [length] at spelled
      exact spelled
    · exact List.append_ne_nil_of_right_ne_nil _ run.1
    · intro c inside
      rcases List.mem_append.mp inside with inside | inside
      · exact zeros_isDigit _ c inside
      · exact run.2 c inside

theorem spells_whole (filled : d.coefficient ≠ 0) (whole : 0 ≤ d.exponent) :
    Spells (d.coefficient * 10 ^ (d.exponent.toNat + 1) ≤ largest) (d.plain ++ ['.', '0'])
      (d.coefficient * 10 ^ (d.exponent.toNat + 1)) (-1) := by
  have run := isRun_digits d.coefficient
  unfold plain
  simp only [if_pos whole]
  refine spells_point (t := ['0']) (isRun_append run (zeros_isDigit _)) ⟨by simp, by simp [isDigit]⟩
    (fun zero => ?_) ?_
  · obtain ⟨c, r, first⟩ := List.exists_cons_of_ne_nil run.1
    have head := digits_head filled
    rw [first] at zero head
    exact absurd zero head
  · rw [readDigits_append, readDigits_append, readDigits_digits, readDigits_zeros,
      show ['0'] = zeros 1 from rfl, readDigits_zeros, Nat.mul_assoc, ← Nat.pow_add]

theorem spells_scientific (d : Decimal) :
    Spells (d.coefficient ≤ largest ∧ d.first.natAbs ≤ largestExponent) d.scientific d.coefficient
      d.exponent := by
  have run := isRun_digits d.coefficient
  have read := readDigits_digits d.coefficient
  unfold scientific first
  simp only [Int.ofNat_eq_natCast]
  obtain ⟨c, r, start⟩ := List.exists_cons_of_ne_nil run.1
  rw [start] at run read ⊢
  have digit := run.2 c (by simp)
  have rest : ∀ x ∈ r, isDigit x = true := fun x inside => run.2 x (by simp [inside])
  have spelled := spells_exponent (e := d.exponent + (c :: r).length - 1) digit rest read
  have back : d.exponent + ((c :: r).length : Int) - 1 - r.length = d.exponent := by
    rw [List.length_cons]
    omega
  rw [back] at spelled
  cases r with
  | nil => exact spelled
  | cons x r => exact spelled

theorem spelled_whole {p : Positional} (filled : d.coefficient ≠ 0) (whole : 0 ≤ d.exponent)
    (first : p.first ≤ d.first) (last : d.first ≤ p.last) :
    d.spelled p = (d.coefficient * 10 ^ (d.exponent.toNat + 1), -1) := by
  rw [spelled, if_neg filled, if_pos ⟨first, last, whole⟩]

theorem spelled_own {p : Positional} (filled : d.coefficient ≠ 0)
    (other : ¬ (p.first ≤ d.first ∧ d.first ≤ p.last ∧ 0 ≤ d.exponent)) :
    d.spelled p = (d.coefficient, d.exponent) := by
  rw [spelled, if_neg filled, if_neg other]

theorem Spells.mono {more less : Prop} (h : Spells more s significand e) (imp : less → more) :
    Spells less s significand e := by
  intro negative
  obtain ⟨n, sign, text, value⟩ := h negative
  exact ⟨n, sign, text, fun inside => value (imp inside)⟩

theorem spells_notated (p : Positional) (d : Decimal) :
    Spells (d.coefficient ≤ largest ∧ (d.spelled p).1 ≤ largest ∧ d.first.natAbs ≤ largestExponent)
      (d.notated p) (d.spelled p).1 (d.spelled p).2 := by
  have start : d.exponent + Int.ofNat (digits d.coefficient).length - 1 = d.first := rfl
  unfold notated
  simp only [start]
  by_cases zero : d.coefficient = 0
  · rw [if_pos zero, spelled, if_pos zero]
    exact (spells_point (s := ['0']) (t := ['0']) ⟨by simp, by simp [isDigit]⟩
      ⟨by simp, by simp [isDigit]⟩ (fun _ => rfl) rfl).mono fun h => h.2.1
  rw [if_neg zero]
  by_cases positional : p.first ≤ d.first ∧ d.first ≤ p.last
  · rw [if_pos positional]
    by_cases whole : 0 ≤ d.exponent
    · rw [if_pos whole, spelled_whole zero whole positional.1 positional.2]
      exact (spells_whole zero whole).mono fun h => h.2.1
    · rw [if_neg whole, spelled_own zero fun h => whole h.2.2]
      exact (spells_plain zero (by omega)).mono fun h => h.1
  · rw [if_neg positional, spelled_own zero fun h => positional ⟨h.1, h.2.1⟩]
    exact (spells_scientific d).mono fun h => ⟨h.1, h.2.2⟩

theorem value_spelled (p : Positional) (d : Decimal) :
    ((d.spelled p).1 : ℚ) * 10 ^ (d.spelled p).2 = d.value := by
  by_cases zero : d.coefficient = 0
  · rw [spelled, if_pos zero, value, zero]
    simp
  by_cases whole : p.first ≤ d.first ∧ d.first ≤ p.last ∧ 0 ≤ d.exponent
  · rw [spelled_whole zero whole.2.2 whole.1 whole.2.1, value]
    obtain ⟨k, same⟩ := Int.eq_ofNat_of_zero_le whole.2.2
    rw [same, Int.toNat_natCast]
    push_cast
    rw [pow_succ, zpow_neg_one, zpow_natCast]
    field_simp
  · rw [spelled_own zero whole, value]

theorem spelled_bounds {p : Positional} {k : Nat} (filled : d.coefficient ≠ 0)
    (last : p.last + 2 ≤ k) (fits : d.coefficient ≤ 10 ^ k) :
    (d.spelled p).1 ≠ 0 ∧ (d.spelled p).1 ≤ 10 ^ k ∧
      ((d.spelled p).2 = d.exponent ∨ (d.spelled p).2 = -1) := by
  by_cases whole : p.first ≤ d.first ∧ d.first ≤ p.last ∧ 0 ≤ d.exponent
  · rw [spelled_whole filled whole.2.2 whole.1 whole.2.1]
    refine ⟨Nat.mul_ne_zero filled (Nat.pow_pos (by decide)).ne', ?_, .inr rfl⟩
    calc d.coefficient * 10 ^ (d.exponent.toNat + 1)
        ≤ 10 ^ (digits d.coefficient).length * 10 ^ (d.exponent.toNat + 1) :=
          Nat.mul_le_mul_right _ (digits_length _).le
      _ = 10 ^ ((digits d.coefficient).length + (d.exponent.toNat + 1)) := (Nat.pow_add ..).symm
      _ ≤ 10 ^ k := by
        have most := whole.2.1
        rw [first, Int.ofNat_eq_natCast] at most
        exact Nat.pow_le_pow_right (by decide) (by omega)
  · rw [spelled_own filled whole]
    exact ⟨filled, fits, .inl rfl⟩

end Notated

end Decimal

end MutantSieve
