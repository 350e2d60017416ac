import MutantSieve.Binary.Shortest
import MutantSieve.Proofs.Nearest

/-!
# Decimals next to a number

The decimals of one step form a grid. Of the grids that are tried the first one with a point in the
interval of a number gives the decimal, and on a grid that is fine enough there is such a point.
Where the interval reaches as far below the number as above it, the chosen point is the one next to
the number.
-/

set_option autoImplicit false

namespace MutantSieve

namespace Decimal

theorem ten_zpow_pos (e : Int) : (0 : ℚ) < 10 ^ e := zpow_pos (by norm_num) e

theorem ten_zpow_succ (e : Int) : (10 : ℚ) ^ (e + 1) = 10 * 10 ^ e := by
  rw [zpow_add_one₀ (by norm_num), mul_comm]

theorem ten_zpow_le {e k : Int} (h : e ≤ k) : (10 : ℚ) ^ e ≤ 10 ^ k :=
  zpow_le_zpow_right₀ (by norm_num) h

theorem up_pos (e : Int) : 0 < up e := Nat.pow_pos (by decide)

theorem down_pos (e : Int) : 0 < down e := Nat.pow_pos (by decide)

theorem up_eq (e : Int) : (up e : ℚ) = 10 ^ e * down e := by
  have sum : e + ((-e).toNat : Int) = (e.toNat : Int) := by omega
  rw [up, down, show Nat.pow 10 e.toNat = 10 ^ e.toNat from rfl,
    show Nat.pow 10 (-e).toNat = 10 ^ (-e).toNat from rfl]
  push_cast
  rw [← zpow_natCast, ← zpow_natCast, ← zpow_add₀ (by norm_num), sum]

def value (d : Decimal) : ℚ := d.coefficient * 10 ^ d.exponent

theorem value_strip (fuel : Nat) (d : Decimal) : (strip fuel d).value = d.value := by
  fun_induction strip fuel d with
  | case1 => rfl
  | case2 fuel d zero ih =>
    have tenth : ((d.coefficient / 10 : Nat) : ℚ) * 10 = d.coefficient := by
      exact_mod_cast Nat.div_mul_cancel (Nat.dvd_of_mod_eq_zero zero.2)
    rw [ih, value, value, ten_zpow_succ, ← tenth]
    ring
  | case3 => rfl

theorem strip_bounds (fuel : Nat) (d : Decimal) (filled : d.coefficient ≠ 0) :
    (strip fuel d).coefficient ≠ 0 ∧ (strip fuel d).coefficient ≤ d.coefficient ∧
      d.exponent ≤ (strip fuel d).exponent := by
  fun_induction strip fuel d with
  | case1 => exact ⟨filled, le_rfl, le_rfl⟩
  | case2 fuel d zero ih =>
    obtain ⟨kept, less, more⟩ := ih (by simp only; omega)
    refine ⟨kept, le_trans less ?_, ?_⟩
    · exact Nat.div_le_self _ _
    · simp only at more
      omega
  | case3 => exact ⟨filled, le_rfl, le_rfl⟩

section Leading

theorem shortfall_bounds (fuel num den : Nat) (enough : den ≤ 10 ^ fuel * num) :
    den ≤ 10 ^ shortfall fuel num den * num ∧
      (shortfall fuel num den ≠ 0 → 10 ^ shortfall fuel num den * num < 10 * den) := by
  fun_induction shortfall fuel num den with
  | case1 => exact ⟨enough, by simp⟩
  | case2 fuel num den reached => exact ⟨by simpa using reached, by simp⟩
  | case3 fuel num den short ih =>
    obtain ⟨above, below⟩ := ih (by rw [pow_succ] at enough; linarith)
    rw [pow_succ]
    refine ⟨by linarith, fun _ => ?_⟩
    by_cases last : shortfall fuel (10 * num) den = 0
    · rw [last] at above ⊢
      omega
    · have := below last
      linarith

theorem leading_bounds {num den : Nat} (filled : num ≠ 0) (positive : 0 < den)
    (small : num < 10 ^ 400) (small' : den ≤ 10 ^ 400) :
    (10 : ℚ) ^ leading num den ≤ num / den ∧ (num : ℚ) / den < 10 ^ (leading num den + 1) := by
  have width : (0 : ℚ) < den := by exact_mod_cast positive
  unfold leading
  split
  · -- The whole part has the first digit.
    rename_i whole
    have one : 1 ≤ num / den := (Nat.one_le_div_iff positive).mpr whole
    have less := Nat.div_le_self num den
    obtain ⟨above, below⟩ := shortfall_bounds 400 1 (num / den + 1) (by omega)
    generalize shortfall 400 1 (num / den + 1) = k at above below
    rw [Nat.mul_one] at above below
    cases k with
    | zero => omega
    | succ k =>
      have below := below (by omega)
      rw [pow_succ] at below
      have floor : 10 ^ k ≤ num / den := by omega
      have first : 10 ^ k * den ≤ num := (Nat.le_div_iff_mul_le positive).mp floor
      have next : num < 10 ^ (k + 1) * den := (Nat.div_lt_iff_lt_mul positive).mp (by omega)
      rw [show Int.ofNat (k + 1) - 1 = (k : Int) by simp,
        show (k : Int) + 1 = ((k + 1 : Nat) : Int) by simp, zpow_natCast, zpow_natCast,
        le_div_iff₀ width, div_lt_iff₀ width]
      exact_mod_cast And.intro first next
  · -- The first digit is behind the point.
    obtain ⟨above, below⟩ := shortfall_bounds 400 num den (by
      calc den ≤ 10 ^ 400 * 1 := by omega
        _ ≤ 10 ^ 400 * num := Nat.mul_le_mul_left _ (Nat.pos_of_ne_zero filled))
    generalize shortfall 400 num den = k at above below
    cases k with
    | zero => omega
    | succ k =>
      have below := below (by omega)
      rw [pow_succ] at below
      have next : 10 ^ k * num < den := by linarith
      have ten : (0 : ℚ) < 10 ^ k := by positivity
      have ten' : (0 : ℚ) < 10 ^ (k + 1) := by positivity
      rw [show -Int.ofNat (k + 1) + 1 = -(k : Int) by simp,
        show -Int.ofNat (k + 1) = -((k + 1 : Nat) : Int) by simp, zpow_neg, zpow_neg,
        zpow_natCast, zpow_natCast, le_div_iff₀ width, div_lt_iff₀ width, inv_mul_le_iff₀ ten',
        lt_inv_mul_iff₀ ten]
      exact_mod_cast And.intro above next

end Leading

end Decimal

namespace Binary

open Decimal

namespace Interval

variable {i : Interval} {v w : ℚ}

def Contains (i : Interval) (v : ℚ) : Prop :=
  if i.closed then (i.low : ℚ) * 2 ^ i.unit ≤ v ∧ v ≤ i.high * 2 ^ i.unit
  else (i.low : ℚ) * 2 ^ i.unit < v ∧ v < i.high * 2 ^ i.unit

theorem holds_iff (i : Interval) (c : Nat) (e : Int) :
    i.holds c e = true ↔ i.Contains (c * 10 ^ e) := by
  have below : (0 : ℚ) < Binary.down i.unit * Decimal.down e := by
    exact_mod_cast Nat.mul_pos (Binary.down_pos _) (Decimal.down_pos _)
  have point : ((c * Decimal.up e * Binary.down i.unit : Nat) : ℚ) =
      c * 10 ^ e * (Binary.down i.unit * Decimal.down e) := by
    push_cast
    rw [Decimal.up_eq]
    ring
  have bound : ∀ n : Nat, ((n * (Binary.up i.unit * Decimal.down e) : Nat) : ℚ) =
      n * 2 ^ i.unit * (Binary.down i.unit * Decimal.down e) := by
    intro n
    push_cast
    rw [Binary.up_eq]
    ring
  unfold holds Contains
  simp only
  split
  · rw [Bool.and_eq_true, decide_eq_true_eq, decide_eq_true_eq, ← Nat.cast_le (α := ℚ),
      ← Nat.cast_le (α := ℚ), point, bound, bound, mul_le_mul_iff_left₀ below,
      mul_le_mul_iff_left₀ below]
  · rw [Bool.and_eq_true, decide_eq_true_eq, decide_eq_true_eq, ← @Nat.cast_lt ℚ,
      ← @Nat.cast_lt ℚ, point, bound, bound, mul_lt_mul_iff_left₀ below,
      mul_lt_mul_iff_left₀ below]

/-- An interval that holds with every point all that are not farther from `v`. -/
def Around (i : Interval) (v : ℚ) : Prop :=
  ∀ a b, |a - v| ≤ |b - v| → i.Contains b → i.Contains a

theorem grid_split (num : Nat) {den : Nat} (positive : 0 < den) (e : Int) :
    ∃ t : ℚ, 0 ≤ t ∧ t < 1 ∧
      (num : ℚ) / den = ((num * Decimal.down e / (den * Decimal.up e) : Nat) + t) * 10 ^ e ∧
      t * (den * Decimal.up e : Nat) = (num * Decimal.down e % (den * Decimal.up e) : Nat) := by
  have width : (0 : ℚ) < den := by exact_mod_cast positive
  have below : (0 : ℚ) < Decimal.down e := by exact_mod_cast Decimal.down_pos e
  have step := Nat.mul_pos positive (Decimal.up_pos e)
  have step' : (0 : ℚ) < (den * Decimal.up e : Nat) := by exact_mod_cast step
  have less : ((num * Decimal.down e % (den * Decimal.up e) : Nat) : ℚ) <
      (den * Decimal.up e : Nat) := by
    exact_mod_cast Nat.mod_lt _ step
  have split : (num : ℚ) * Decimal.down e =
      (num * Decimal.down e / (den * Decimal.up e) : Nat) * (den * Decimal.up e : Nat) +
        (num * Decimal.down e % (den * Decimal.up e) : Nat) := by
    exact_mod_cast (Nat.div_add_mod' (num * Decimal.down e) (den * Decimal.up e)).symm
  generalize num * Decimal.down e / (den * Decimal.up e) = c at *
  generalize num * Decimal.down e % (den * Decimal.up e) = rest at *
  refine ⟨rest / (den * Decimal.up e : Nat), by positivity, (div_lt_one step').mpr less, ?_,
    div_mul_cancel₀ _ step'.ne'⟩
  have unit := ten_zpow_pos e
  push_cast at split ⊢
  rw [Decimal.up_eq] at split ⊢
  field_simp
  linear_combination split

/-- What is asked of a point of a grid that is chosen for `v`: if the interval holds with a point
all that are nearer, the chosen point is half a step away at most. -/
structure Chosen (i : Interval) (v : ℚ) (e : Int) (d : Decimal) : Prop where
  step : d.exponent = e
  filled : d.coefficient ≠ 0
  inside : i.Contains d.value
  near : d.value ≤ v + 10 ^ e
  half : i.Around v → 2 * |d.value - v| ≤ 10 ^ e

section Grid

variable {c : Nat} {t : ℚ} {e : Int}

theorem below_distance (low : 0 ≤ t) : |(c : ℚ) * 10 ^ e - (c + t) * 10 ^ e| = t * 10 ^ e := by
  rw [← sub_mul, sub_add_cancel_left, neg_mul, abs_neg,
    abs_of_nonneg (mul_nonneg low (ten_zpow_pos e).le)]

theorem above_distance (high : t < 1) :
    |((c + 1 : Nat) : ℚ) * 10 ^ e - (c + t) * 10 ^ e| = (1 - t) * 10 ^ e := by
  rw [← sub_mul, abs_mul, abs_of_pos (ten_zpow_pos e), Nat.cast_succ, add_sub_add_left_eq_sub,
    abs_of_pos (by linarith)]

theorem remainder_compares {b left : Nat} (positive : 0 < b) (rest : t * b = left) :
    (2 * left < b ↔ 2 * t < 1) ∧ (b < 2 * left ↔ 1 < 2 * t) := by
  have step : (0 : ℚ) < b := by exact_mod_cast positive
  have doubled : ((2 * left : Nat) : ℚ) = 2 * t * b := by
    rw [mul_assoc, rest]
    push_cast
    rfl
  constructor
  · rw [← @Nat.cast_lt ℚ, doubled, mul_lt_iff_lt_one_left step]
  · rw [← @Nat.cast_lt ℚ, doubled, lt_mul_iff_one_lt_left step]

theorem chosen_below (low : 0 ≤ t) (high : t < 1) (filled : c ≠ 0)
    (inside : i.holds c e = true) (nearer : 2 * t ≤ 1 ∨ i.holds (c + 1) e = false) :
    i.Chosen ((c + t) * 10 ^ e) e ⟨c, e⟩ := by
  have unit := ten_zpow_pos e
  refine ⟨rfl, filled, (holds_iff i c e).mp inside, ?_, fun around => ?_⟩
  · show (c : ℚ) * 10 ^ e ≤ (c + t) * 10 ^ e + 10 ^ e
    have := mul_nonneg low unit.le
    linarith
  · show 2 * |(c : ℚ) * 10 ^ e - (c + t) * 10 ^ e| ≤ 10 ^ e
    have nearer : 2 * t ≤ 1 := by
      rcases nearer with nearer | outside
      · exact nearer
      by_contra farther
      have held := around _ _ (by
        rw [above_distance high, below_distance low]
        exact mul_le_mul_of_nonneg_right (by linarith) unit.le) ((holds_iff i c e).mp inside)
      rw [(holds_iff i (c + 1) e).mpr held] at outside
      cases outside
    rw [below_distance low, ← mul_assoc]
    exact mul_le_of_le_one_left unit.le nearer

theorem chosen_above (low : 0 ≤ t) (high : t < 1) (inside : i.holds (c + 1) e = true)
    (nearer : 1 ≤ 2 * t ∨ ¬ i.Contains (c * 10 ^ e)) :
    i.Chosen ((c + t) * 10 ^ e) e ⟨c + 1, e⟩ := by
  have unit := ten_zpow_pos e
  have held := (holds_iff i (c + 1) e).mp inside
  refine ⟨rfl, c.succ_ne_zero, held, ?_, fun around => ?_⟩
  · show ((c + 1 : Nat) : ℚ) * 10 ^ e ≤ (c + t) * 10 ^ e + 10 ^ e
    have := mul_nonneg low unit.le
    push_cast
    linarith
  · show 2 * |((c + 1 : Nat) : ℚ) * 10 ^ e - (c + t) * 10 ^ e| ≤ 10 ^ e
    have nearer : 1 ≤ 2 * t := by
      rcases nearer with nearer | outside
      · exact nearer
      by_contra farther
      exact outside (around _ _ (by
        rw [above_distance high, below_distance low]
        exact mul_le_mul_of_nonneg_right (by linarith) unit.le) held)
    rw [above_distance high, ← mul_assoc]
    exact mul_le_of_le_one_left unit.le (by linarith)

end Grid

theorem neighbour_spec {tieUp : Bool} {num den : Nat} (positive : 0 < den) {e : Int} {d : Decimal}
    (filled : ¬ i.Contains 0) (found : i.neighbour tieUp num den e = some d) :
    i.Chosen (num / den) e d := by
  obtain ⟨t, low, high, whole, rest⟩ := grid_split num positive e
  have step := Nat.mul_pos positive (Decimal.up_pos e)
  rw [whole]
  unfold neighbour at found
  simp only at found
  generalize num * Decimal.down e / (den * Decimal.up e) = c at *
  generalize num * Decimal.down e % (den * Decimal.up e) = left at *
  generalize den * Decimal.up e = b at *
  obtain ⟨less, more⟩ := remainder_compares step rest
  -- In the first two cases one of the points around the fraction is inside, in the third both are.
  split at found
  · rename_i below above
    obtain ⟨inside, nonzero⟩ := Bool.and_eq_true_iff.mp below
    cases found
    exact chosen_below low high (of_decide_eq_true nonzero) inside (.inr above)
  · rename_i below above
    cases found
    refine chosen_above low high above (.inr fun inside => ?_)
    by_cases zero : c = 0
    · rw [zero] at inside
      exact filled (by simpa using inside)
    · simp [(holds_iff i c e).mpr inside, zero] at below
  · rename_i below above
    obtain ⟨inside, nonzero⟩ := Bool.and_eq_true_iff.mp below
    have nonzero := of_decide_eq_true nonzero
    split at found
    · cases found
      exact chosen_below low high nonzero inside (.inl (less.mp ‹_›).le)
    split at found
    · cases found
      exact chosen_above low high above (.inl (not_lt.mp (mt less.mpr (by omega))))
    split at found
    · cases found
      exact chosen_above low high above (.inl (not_lt.mp (mt less.mpr (by omega))))
    · cases found
      exact chosen_below low high nonzero inside (.inl (not_lt.mp (mt more.mpr ‹_›)))
  · cases found

theorem neighbour_isSome {tieUp : Bool} {num den : Nat} {e : Int}
    (h : i.holds (num * Decimal.down e / (den * Decimal.up e)) e = true)
    (nonzero : num * Decimal.down e / (den * Decimal.up e) ≠ 0) :
    (i.neighbour tieUp num den e).isSome = true := by
  have below : (i.holds (num * Decimal.down e / (den * Decimal.up e)) e &&
      decide (num * Decimal.down e / (den * Decimal.up e) ≠ 0)) = true := by
    rw [h, decide_eq_true nonzero, Bool.and_self]
  unfold neighbour
  simp only [below]
  cases i.holds (num * Decimal.down e / (den * Decimal.up e) + 1) e
  · rfl
  · simp only
    split
    · rfl
    split
    · rfl
    split <;> rfl

end Interval

section Shortest

variable {f : Format} {m : Nat} {q : Int} {w : ℚ}

theorem two_zpow_pred (q : Int) : (2 : ℚ) ^ q = 2 * 2 ^ (q - 1) := by
  rw [← two_zpow_succ, sub_add_cancel]

/-- The bounds of an interval are half a place away, below the first number of an exponent a
quarter. -/
theorem interval_contains (filled : m ≠ 0) (w : ℚ) :
    (f.interval m q).Contains w ↔
      let low := if m = f.half ∧ f.least < q then (2 : ℚ) ^ (q - 2) else 2 ^ (q - 1)
      if m % 2 = 0 then (m : ℚ) * 2 ^ q - low ≤ w ∧ w ≤ m * 2 ^ q + 2 ^ (q - 1)
      else (m : ℚ) * 2 ^ q - low < w ∧ w < m * 2 ^ q + 2 ^ (q - 1) := by
  have half : (2 : ℚ) ^ (q - 1) = 2 * 2 ^ (q - 2) := by
    rw [two_zpow_pred, show q - 1 - 1 = q - 2 by ring]
  have whole : (2 : ℚ) ^ q = 4 * 2 ^ (q - 2) := by
    rw [two_zpow_pred, half]
    ring
  have above : ((4 * m + 2 : Nat) : ℚ) * 2 ^ (q - 2) = m * 2 ^ q + 2 ^ (q - 1) := by
    push_cast
    rw [whole, half]
    ring
  have below : ((4 * m - (if m = f.half ∧ f.least < q then 1 else 2) : Nat) : ℚ) * 2 ^ (q - 2) =
      m * 2 ^ q - (if m = f.half ∧ f.least < q then (2 : ℚ) ^ (q - 2) else 2 ^ (q - 1)) := by
    split
    · rw [Nat.cast_sub (by omega), whole]
      push_cast
      ring
    · rw [Nat.cast_sub (by omega), whole, half]
      push_cast
      ring
  simp only [Interval.Contains, Format.interval, decide_eq_true_eq, above, below]

theorem interval_positive (filled : m ≠ 0) : ¬ (f.interval m q).Contains 0 := by
  have unit := two_zpow_pos (q - 1)
  have quarter : (2 : ℚ) ^ (q - 2) ≤ 2 ^ (q - 1) := two_zpow_le (by omega)
  have one : (1 : ℚ) ≤ m := by exact_mod_cast Nat.pos_of_ne_zero filled
  have more : (2 : ℚ) ^ q ≤ m * 2 ^ q := le_mul_of_one_le_left (two_zpow_pos q).le one
  have doubled := two_zpow_pred q
  rw [interval_contains filled]
  simp only
  split <;> split <;> rintro ⟨low, -⟩ <;> linarith

theorem interval_near (filled : m ≠ 0) (near : |w - m * 2 ^ q| < 2 ^ (q - 2)) :
    (f.interval m q).Contains w := by
  have quarter : (2 : ℚ) ^ (q - 2) ≤ 2 ^ (q - 1) := two_zpow_le (by omega)
  obtain ⟨low, high⟩ := abs_lt.mp near
  rw [interval_contains filled]
  simp only
  split <;> split <;> constructor <;> linarith

theorem interval_even (filled : m ≠ 0) (even : m ≠ f.half ∨ q ≤ f.least) :
    (f.interval m q).Contains w ↔
      if m % 2 = 0 then |w - m * 2 ^ q| ≤ 2 ^ (q - 1) else |w - m * 2 ^ q| < 2 ^ (q - 1) := by
  have wide : ¬ (m = f.half ∧ f.least < q) := by omega
  rw [interval_contains filled]
  simp only [if_neg wide, abs_le, abs_lt, neg_le_sub_iff_le_add, neg_lt_sub_iff_lt_add,
    sub_le_iff_le_add, sub_lt_iff_lt_add, add_comm]

theorem interval_around (filled : m ≠ 0) (even : m ≠ f.half ∨ q ≤ f.least) :
    (f.interval m q).Around (m * 2 ^ q) := by
  intro a b nearer
  rw [interval_even filled even, interval_even filled even]
  split
  · exact le_trans nearer
  · exact lt_of_le_of_lt nearer

theorem exists_first {α : Type} {g : Nat → Option α} {n k : Nat} (inside : n < k)
    (h : (g n).isSome = true) :
    ∃ j a, j ≤ n ∧ g j = some a ∧ (List.range k).findSome? g = some a := by
  have found : ((List.range k).findSome? g).isSome = true :=
    List.findSome?_isSome_iff.mpr ⟨n, List.mem_range.mpr inside, h⟩
  obtain ⟨a, same⟩ := Option.isSome_iff_exists.mp found
  obtain ⟨before, j, after, split, first, none⟩ := List.findSome?_eq_some_iff.mp same
  have place : j = before.length := by
    have at_j : (List.range k)[before.length]? = some j := by
      rw [split, List.getElem?_append_right le_rfl, Nat.sub_self]
      rfl
    obtain ⟨within, value⟩ := List.getElem?_eq_some_iff.mp at_j
    rw [← value, List.getElem_range]
  refine ⟨j, a, ?_, first, same⟩
  by_contra behind
  have early : n ∈ before := by
    have at_n : (List.range k)[n]? = before[n]? := by
      rw [split, List.getElem?_append_left (by omega)]
    rw [List.getElem?_range inside] at at_n
    exact List.mem_of_getElem? at_n.symm
  rw [none n early] at h
  cases h

theorem ten_zpow_split (lead : Int) (k : Nat) :
    (10 : ℚ) ^ lead = 10 ^ k * 10 ^ (lead - Int.ofNat k) := by
  rw [← zpow_natCast, ← zpow_add₀ (by norm_num)]
  congr 1
  simp

theorem neighbour_reached {tieUp : Bool} {k : Nat} {lead : Int} (filled : m ≠ 0)
    (first : (10 : ℚ) ^ lead ≤ m * 2 ^ q) (fine : 4 * m < 10 ^ k) :
    ((f.interval m q).neighbour tieUp (m * Binary.up q) (Binary.down q)
      (lead - Int.ofNat k)).isSome = true := by
  obtain ⟨t, low, high, whole, -⟩ := Interval.grid_split (m * Binary.up q) (Binary.down_pos q)
    (lead - Int.ofNat k)
  rw [ratio_eq m q] at whole
  rw [ten_zpow_split lead k] at first
  have step := ten_zpow_pos (lead - Int.ofNat k)
  apply Interval.neighbour_isSome
  · rw [Interval.holds_iff]
    apply interval_near filled
    generalize m * Binary.up q * Decimal.down (lead - Int.ofNat k) /
      (Binary.down q * Decimal.up (lead - Int.ofNat k)) = c at *
    generalize (10 : ℚ) ^ (lead - Int.ofNat k) = s at *
    have off : |(c : ℚ) * s - m * 2 ^ q| < s := by
      rw [whole, ← sub_mul, sub_add_cancel_left, neg_mul, abs_neg,
        abs_of_nonneg (mul_nonneg low step.le)]
      exact mul_lt_of_lt_one_left step high
    have quarter : (2 : ℚ) ^ q = 4 * 2 ^ (q - 2) := by
      rw [two_zpow_pred, two_zpow_pred (q - 1), show q - 1 - 1 = q - 2 by ring]
      ring
    have fine : (4 : ℚ) * m < 10 ^ k := by exact_mod_cast fine
    have tens : (0 : ℚ) < 10 ^ k := by positivity
    have narrow : s * 10 ^ k < 10 ^ k * 2 ^ (q - 2) := by
      calc s * 10 ^ k = 10 ^ k * s := mul_comm _ _
        _ ≤ m * 2 ^ q := first
        _ = 4 * m * 2 ^ (q - 2) := by
          rw [quarter]
          ring
        _ < 10 ^ k * 2 ^ (q - 2) := mul_lt_mul_of_pos_right fine (two_zpow_pos (q - 2))
    rw [mul_comm] at narrow
    exact off.trans (lt_of_mul_lt_mul_left narrow tens.le)
  · intro zero
    rw [zero, Nat.cast_zero, zero_add] at whole
    have tens : (1 : ℚ) ≤ 10 ^ k := one_le_pow₀ (by norm_num)
    have := mul_lt_of_lt_one_left step high
    have := le_mul_of_one_le_left step.le tens
    linarith

theorem coefficient_le {I : Interval} {d : Decimal} {v : ℚ} {lead : Int} {n : Nat}
    (chosen : I.Chosen v (lead - Int.ofNat n) d) (beyond : v < 10 ^ (lead + 1)) :
    d.coefficient ≤ 10 ^ (n + 1) := by
  have near := chosen.near
  rw [Decimal.value, chosen.step] at near
  have step := ten_zpow_pos (lead - Int.ofNat n)
  have less : (d.coefficient : ℚ) * 10 ^ (lead - Int.ofNat n) <
      ((10 ^ (n + 1) : Nat) + 1) * 10 ^ (lead - Int.ofNat n) := by
    have steps := ten_zpow_split (lead + 1) (n + 1)
    rw [show lead + 1 - Int.ofNat (n + 1) = lead - Int.ofNat n by simp] at steps
    rw [steps] at beyond
    push_cast
    linarith
  have less : (d.coefficient : ℚ) < (10 ^ (n + 1) : Nat) + 1 :=
    lt_of_mul_lt_mul_right less step.le
  have less : d.coefficient < 10 ^ (n + 1) + 1 := by exact_mod_cast less
  omega

/-- The shortest decimal of a number is a point of a grid, chosen for the number and freed of zeros.
On the grid `k` digits behind the first digit there is a point in the interval if a place is more
than four grid steps wide. -/
theorem exists_chosen {tieUp : Bool} {k : Nat} (filled : m ≠ 0) (within : k < 17)
    (small : m * up q < 10 ^ 400) (small' : down q ≤ 10 ^ 400) (fine : 4 * m < 10 ^ k) :
    ∃ e d, (f.interval m q).Chosen (m * 2 ^ q) e d ∧ d.coefficient ≤ 10 ^ (k + 1) ∧
      f.shortest tieUp m q = d.strip 20 := by
  have above : m * Binary.up q ≠ 0 := Nat.mul_ne_zero filled (Binary.up_pos q).ne'
  obtain ⟨first, beyond⟩ := leading_bounds above (Binary.down_pos q) small small'
  rw [ratio_eq m q] at first beyond
  generalize place : leading (m * Binary.up q) (Binary.down q) = lead at first beyond
  obtain ⟨n, d, early, chosen, found⟩ := exists_first within
    (g := fun n => (f.interval m q).neighbour tieUp (m * Binary.up q) (Binary.down q)
      (lead - Int.ofNat n)) (neighbour_reached filled first fine)
  have spec := Interval.neighbour_spec (Binary.down_pos q) (interval_positive filled) chosen
  rw [ratio_eq m q] at spec
  refine ⟨_, d, spec, ?_, ?_⟩
  · exact (coefficient_le spec beyond).trans (Nat.pow_le_pow_right (by decide) (by omega))
  · rw [Format.shortest, if_neg filled]
    simp only [place, found, Option.getD_some]

end Shortest

end Binary

end MutantSieve
