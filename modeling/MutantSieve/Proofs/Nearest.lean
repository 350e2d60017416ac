import Mathlib.Algebra.Order.Field.Power
import Mathlib.Data.Rat.Defs
import Mathlib.Tactic.FieldSimp
import Mathlib.Tactic.Linarith
import Mathlib.Tactic.LinearCombination
import Mathlib.Tactic.Positivity
import Mathlib.Tactic.Ring
import MutantSieve.Proofs.Rounding

/-!
# Rounding to the nearest number

A positive rational has one place in a format: the exponent at which its significand has full
length, or the least exponent. At that place it is rounded to the whole number next to it, so the
result is off by half a place at most, and a number of the format stays as it is.
-/

set_option autoImplicit false

namespace MutantSieve.Binary

theorem two_zpow_pos (q : Int) : (0 : ℚ) < 2 ^ q := zpow_pos (by norm_num) q

theorem two_zpow_succ (q : Int) : (2 : ℚ) ^ (q + 1) = 2 * 2 ^ q := by
  rw [zpow_add_one₀ (by norm_num), mul_comm]

theorem two_zpow_le {q r : Int} (h : q ≤ r) : (2 : ℚ) ^ q ≤ 2 ^ r :=
  zpow_le_zpow_right₀ (by norm_num) h

theorem down_pos_rat (q : Int) : (0 : ℚ) < down q := by exact_mod_cast down_pos q

theorem up_eq (q : Int) : (up q : ℚ) = 2 ^ q * down q := by
  have sum : q + ((-q).toNat : Int) = (q.toNat : Int) := by omega
  rw [up, down, show Nat.pow 2 q.toNat = 2 ^ q.toNat from rfl,
    show Nat.pow 2 (-q).toNat = 2 ^ (-q).toNat from rfl]
  push_cast
  rw [← zpow_natCast, ← zpow_natCast, ← zpow_add₀ (by norm_num), sum]

theorem ratio_eq (m : Nat) (q : Int) : ((m * up q : Nat) : ℚ) / (down q : Nat) = m * 2 ^ q := by
  rw [div_eq_iff (down_pos_rat q).ne']
  push_cast
  rw [up_eq]
  ring

theorem scaled_ratio (num : Nat) {den : Nat} (positive : 0 < den) (q : Int) :
    ((num * down q : Nat) : ℚ) / (den * up q : Nat) = (num : ℚ) / den / 2 ^ q := by
  have width : (0 : ℚ) < den := by exact_mod_cast positive
  have below := down_pos_rat q
  have unit := two_zpow_pos q
  push_cast
  rw [up_eq]
  field_simp

section Whole

variable {v : ℚ} {m n : Nat}

def Nearest (v : ℚ) (m : Nat) : Prop := |v - m| ≤ 1 / 2 ∧ (|v - m| = 1 / 2 → m % 2 = 0)

theorem nearest_of_halves {a b : Nat} (positive : 0 < b)
    (close : (2 * a - 2 * m * b : Int).natAbs ≤ b)
    (even : (2 * a - 2 * m * b : Int).natAbs = b → m % 2 = 0) : Nearest ((a : ℚ) / b) m := by
  have width : (0 : ℚ) < b := by exact_mod_cast positive
  have distance : |(a : ℚ) / b - m| = (2 * a - 2 * m * b : Int).natAbs / (2 * b) := by
    have inside : (a : ℚ) / b - m = ((2 * a - 2 * m * b : Int) : ℚ) / (2 * b) := by
      push_cast
      field_simp
    rw [inside, abs_div, abs_of_pos (by linarith : (0 : ℚ) < 2 * b), Nat.cast_natAbs, Int.cast_abs]
  generalize (2 * a - 2 * m * b : Int).natAbs = off at *
  constructor
  · have close : (off : ℚ) ≤ b := by exact_mod_cast close
    rw [distance, div_le_div_iff₀ (by linarith) (by norm_num)]
    linarith
  · rw [distance, div_eq_div_iff (by linarith) (by norm_num)]
    intro same
    apply even
    have same : (off : ℚ) = b := by linarith
    exact_mod_cast same

theorem nearest_divNearest (a : Nat) {b : Nat} (positive : 0 < b) :
    Nearest ((a : ℚ) / b) (divNearest a b) := by
  have split := Nat.div_add_mod' a b
  have below := Nat.mod_lt a positive
  have low : (2 * a - 2 * (a / b : Nat) * b : Int) = 2 * (a % b : Nat) := by
    have split : ((a / b : Nat) : Int) * b + (a % b : Nat) = a := by exact_mod_cast split
    linear_combination -2 * split
  have high : (2 * a - 2 * (a / b + 1 : Nat) * b : Int) = 2 * (a % b : Nat) - 2 * b := by
    push_cast at low ⊢
    linear_combination low
  unfold divNearest
  simp only
  split
  · apply nearest_of_halves positive <;> rw [low] <;> omega
  split
  · apply nearest_of_halves positive <;> rw [high] <;> omega
  split
  · apply nearest_of_halves positive <;> rw [low] <;> omega
  · apply nearest_of_halves positive <;> rw [high] <;> omega

theorem Nearest.unique (h : Nearest v m) (h' : Nearest v n) : m = n := by
  obtain ⟨close, even⟩ := h
  obtain ⟨close', even'⟩ := h'
  rw [abs_le] at close close'
  rcases Nat.lt_trichotomy m n with less | same | more
  · have gap : (m : ℚ) + 1 ≤ n := by exact_mod_cast less
    have middle : v - m = 1 / 2 := by linarith
    have middle' : v - n = -(1 / 2) := by linarith
    have next : n = m + 1 := by
      have : (n : ℚ) = m + 1 := by linarith
      exact_mod_cast this
    have one := even (by rw [middle]; norm_num)
    have two := even' (by rw [middle']; norm_num)
    omega
  · exact same
  · have gap : (n : ℚ) + 1 ≤ m := by exact_mod_cast more
    have middle : v - n = 1 / 2 := by linarith
    have middle' : v - m = -(1 / 2) := by linarith
    have next : m = n + 1 := by
      have : (m : ℚ) = n + 1 := by linarith
      exact_mod_cast this
    have one := even (by rw [middle']; norm_num)
    have two := even' (by rw [middle]; norm_num)
    omega

theorem nearest_self (m : Nat) : Nearest m m := by
  constructor
  · simp
  · intro h
    norm_num at h

end Whole

section Places

variable {f : Format} {v : ℚ} {q r : Int}

/-- The exponent at which a number has its place: its significand has full length there, or the
exponent is the least one. -/
structure Place (f : Format) (v : ℚ) (q : Int) : Prop where
  least : f.least ≤ q
  below : v < f.limit * 2 ^ q
  full : q = f.least ∨ f.half * 2 ^ q ≤ v

theorem limit_eq (f : Format) (wide : 0 < f.places) : f.limit = 2 * f.half := by
  have pred : f.places = f.places - 1 + 1 := by omega
  rw [Format.limit, Format.half, pred]
  exact Nat.pow_succ'

theorem Place.le_of_below (wide : 0 < f.places) (h : Place f v q) (least : f.least ≤ r)
    (below : v < f.limit * 2 ^ r) : q ≤ r := by
  rcases h.full with same | full
  · omega
  · by_contra beyond
    have up := two_zpow_le (show r + 1 ≤ q by omega)
    rw [two_zpow_succ] at up
    have half : (0 : ℚ) ≤ f.half := by positivity
    have doubled : (f.limit : ℚ) = 2 * f.half := by exact_mod_cast limit_eq f wide
    rw [doubled] at below
    have := mul_le_mul_of_nonneg_left up half
    linarith

theorem Place.unique (wide : 0 < f.places) (h : Place f v q) (h' : Place f v r) : q = r :=
  le_antisymm (h.le_of_below wide h'.least h'.below) (h'.le_of_below wide h.least h.below)

/-- What the significand that is found at a place makes: at the limit of the format, the last place
moves on. -/
def Format.assemble (f : Format) (negative : Bool) (m : Nat) (q : Int) : Binary :=
  if m = f.limit then
    if f.most < q + 1 then .infinite negative else .finite negative f.half (q + 1)
  else if f.most < q then .infinite negative
  else .finite negative m q

theorem log2_bounds {n : Nat} (filled : n ≠ 0) :
    (2 : ℚ) ^ (n.log2 : Int) ≤ n ∧ (n : ℚ) < 2 * 2 ^ (n.log2 : Int) := by
  have below : 2 ^ n.log2 ≤ n := Nat.log2_self_le filled
  have above : n < 2 ^ (n.log2 + 1) := Nat.lt_log2_self
  rw [Nat.pow_succ'] at above
  rw [zpow_natCast]
  exact_mod_cast And.intro below above

theorem quotient_lt_iff {num den n : Nat} (positive : 0 < den) :
    num * down q / (den * up q) < n ↔ (num : ℚ) / den < n * 2 ^ q := by
  have width : 0 < den * up q := Nat.mul_pos positive (up_pos q)
  have width' : (0 : ℚ) < (den * up q : Nat) := by exact_mod_cast width
  rw [Nat.div_lt_iff_lt_mul width, ← div_lt_iff₀ (two_zpow_pos q), ← scaled_ratio num positive,
    div_lt_iff₀ width']
  exact_mod_cast Iff.rfl

theorem exists_round (f : Format) (wide : 0 < f.places) (negative : Bool) {num den : Nat}
    (filled : num ≠ 0) (positive : 0 < den) :
    ∃ q, Place f ((num : ℚ) / den) q ∧ f.round negative num den =
      f.assemble negative (divNearest (num * down q) (den * up q)) q := by
  have width : (0 : ℚ) < den := by exact_mod_cast positive
  have doubled : (f.limit : ℚ) = 2 * f.half := by exact_mod_cast limit_eq f wide
  rw [Format.round, if_neg filled]
  simp only
  generalize magnitude : (num.log2 : Int) - (den.log2 : Int) = size
  generalize first : max f.least (size - f.places) = start
  split
  · rename_i fits
    rw [quotient_lt_iff positive] at fits
    refine ⟨start, ⟨by omega, fits, ?_⟩, rfl⟩
    by_cases lowest : start = f.least
    · exact .inl lowest
    · right
      -- The guess is then two powers below the fraction of the highest digits.
      have low := (log2_bounds filled).1
      have high := (log2_bounds (show den ≠ 0 by omega)).2
      have unit : (f.half : ℚ) * 2 ^ start * (2 * 2 ^ (den.log2 : Int)) = 2 ^ (num.log2 : Int) := by
        have half : (f.half : ℚ) = 2 ^ ((f.places : Int) - 1) := by
          rw [Format.half, show Nat.pow 2 (f.places - 1) = 2 ^ (f.places - 1) from rfl]
          push_cast
          rw [← zpow_natCast]
          congr 1
          omega
        rw [half, ← two_zpow_succ, ← zpow_add₀ (by norm_num), ← zpow_add₀ (by norm_num)]
        congr 1
        omega
      rw [le_div_iff₀ width]
      calc (f.half : ℚ) * 2 ^ start * den
          ≤ (f.half : ℚ) * 2 ^ start * (2 * 2 ^ (den.log2 : Int)) := by gcongr
        _ = 2 ^ (num.log2 : Int) := unit
        _ ≤ num := low
  · rename_i beyond
    have more : (f.limit : ℚ) * 2 ^ start ≤ num / den := by
      rw [quotient_lt_iff positive] at beyond
      exact not_lt.mp beyond
    have guess : (num.log2 : Int) - (den.log2 : Int) - f.places ≤ start := by omega
    have fits := quotient_lt_limit f positive guess
    rw [quotient_lt_iff positive] at fits
    refine ⟨start + 1, ⟨by omega, fits, .inr ?_⟩, rfl⟩
    rw [two_zpow_succ]
    rw [doubled] at more
    linarith

end Places

section Rounded

variable {f : Format} {negative s t : Bool} {v w : ℚ} {m : Nat} {q : Int} {x y : Binary}

def Measures (x : Binary) (negative : Bool) (v : ℚ) : Prop :=
  ∃ m q, x = finite negative m q ∧ (m : ℚ) * 2 ^ q = v

def Rounds (f : Format) (negative : Bool) (v : ℚ) (y : Binary) : Prop :=
  ∃ num den : Nat, 0 < den ∧ (num : ℚ) / den = v ∧ y = f.round negative num den

theorem rounds_nat (f : Format) (negative : Bool) (n : Nat) :
    Rounds f negative n (f.round negative n 1) :=
  ⟨n, 1, by decide, by simp, rfl⟩

theorem rounds_convert (f : Format) (h : Measures x s v) : Rounds f s v (f.convert x) := by
  obtain ⟨m, q, rfl, rfl⟩ := h
  exact ⟨m * up q, down q, down_pos q, ratio_eq m q, rfl⟩

theorem rounds_times (f : Format) (h : Measures x s v) (h' : Measures y t w) :
    Rounds f (s != t) (v * w) (f.times x y) := by
  obtain ⟨m, q, rfl, rfl⟩ := h
  obtain ⟨n, r, rfl, rfl⟩ := h'
  refine ⟨m * n * up (q + r), down (q + r), down_pos _, ?_, rfl⟩
  rw [ratio_eq, zpow_add₀ (by norm_num)]
  push_cast
  ring

theorem rounds_over (f : Format) (h : Measures x s v) (h' : Measures y t w) (filled : w ≠ 0) :
    Rounds f (s != t) (v / w) (f.over x y) := by
  obtain ⟨m, q, rfl, rfl⟩ := h
  obtain ⟨n, r, rfl, rfl⟩ := h'
  have divisor : n ≠ 0 := by
    rintro rfl
    simp at filled
  refine ⟨m * up (q - r), n * down (q - r), ?_, ?_, ?_⟩
  · exact Nat.mul_pos (Nat.pos_of_ne_zero divisor) (down_pos _)
  · have ratio := ratio_eq m (q - r)
    have below := down_pos_rat (q - r)
    have units : (2 : ℚ) ^ q = 2 ^ (q - r) * 2 ^ r := by
      rw [← zpow_add₀ (by norm_num), sub_add_cancel]
    have unit := two_zpow_pos r
    have divisor' : (n : ℚ) ≠ 0 := by exact_mod_cast divisor
    push_cast at ratio ⊢
    rw [div_eq_iff below.ne'] at ratio
    rw [ratio, units]
    field_simp
  · simp [Format.over, divisor]

theorem Rounds.eq_assemble (wide : 0 < f.places) (positive : 0 < v) (h : Rounds f negative v y) :
    ∃ q m, Place f v q ∧ Nearest (v / 2 ^ q) m ∧ y = f.assemble negative m q := by
  obtain ⟨num, den, below, rfl, rfl⟩ := h
  have filled : num ≠ 0 := by
    rintro rfl
    simp at positive
  obtain ⟨q, place, rounded⟩ := exists_round f wide negative filled below
  refine ⟨q, _, place, ?_, rounded⟩
  rw [← scaled_ratio num below]
  exact nearest_divNearest _ (Nat.mul_pos below (up_pos q))

theorem Rounds.eq_finite (wide : 0 < f.places) (positive : 0 < v) (h : Rounds f negative v y)
    (place : Place f v q) (near : Nearest (v / 2 ^ q) m) (short : m < f.limit)
    (top : q ≤ f.most) : y = finite negative m q := by
  obtain ⟨r, n, place', near', rfl⟩ := h.eq_assemble wide positive
  obtain rfl := place.unique wide place'
  obtain rfl := near.unique near'
  rw [Format.assemble, if_neg (by omega), if_neg (by omega)]

theorem Place.significand_bounds (place : Place f v q) (near : Nearest (v / 2 ^ q) m) :
    m ≤ f.limit ∧ (q = f.least ∨ f.half ≤ m) := by
  have unit := two_zpow_pos q
  have close := abs_le.mp near.1
  constructor
  · have above : v / 2 ^ q < f.limit := (div_lt_iff₀ unit).mpr place.below
    have next : (m : ℚ) < f.limit + 1 := by linarith
    have next : m < f.limit + 1 := by exact_mod_cast next
    omega
  · rcases place.full with lowest | full
    · exact .inl lowest
    · have above : (f.half : ℚ) ≤ v / 2 ^ q := (le_div_iff₀ unit).mpr full
      have next : (f.half : ℚ) < m + 1 := by linarith
      have next : f.half < m + 1 := by exact_mod_cast next
      exact .inr (by omega)

theorem measures_assemble (wide : 0 < f.places) (top : q < f.most) :
    Measures (f.assemble negative m q) negative (m * 2 ^ q) := by
  unfold Format.assemble
  split
  · rename_i full
    rw [if_neg (by omega)]
    refine ⟨_, _, rfl, ?_⟩
    have doubled : (f.limit : ℚ) = 2 * f.half := by exact_mod_cast limit_eq f wide
    rw [full, doubled, two_zpow_succ]
    ring
  · rw [if_neg (by omega)]
    exact ⟨_, _, rfl, rfl⟩

theorem Place.lt_most (wide : 0 < f.places) (place : Place f v q) (ranged : f.least < f.most)
    (high : v < f.half * 2 ^ f.most) : q < f.most := by
  have doubled : (f.limit : ℚ) = 2 * f.half := by exact_mod_cast limit_eq f wide
  have inside : q ≤ f.most - 1 := by
    apply place.le_of_below wide (by omega)
    have unit := two_zpow_succ (f.most - 1)
    rw [sub_add_cancel] at unit
    rw [unit] at high
    rw [doubled]
    linarith
  omega

theorem Rounds.close (wide : 0 < f.places) (ranged : f.least < f.most) (h : Rounds f negative v y)
    (low : f.half * 2 ^ f.least ≤ v) (high : v < f.half * 2 ^ f.most) :
    ∃ w, Measures y negative w ∧ |w - v| ≤ v / f.limit := by
  have half : (0 : ℚ) < f.half := by exact_mod_cast Nat.pow_pos (by decide)
  have positive : 0 < v := lt_of_lt_of_le (mul_pos half (two_zpow_pos _)) low
  have doubled : (f.limit : ℚ) = 2 * f.half := by exact_mod_cast limit_eq f wide
  obtain ⟨q, m, place, near, rfl⟩ := h.eq_assemble wide positive
  have unit := two_zpow_pos q
  have top := place.lt_most wide ranged high
  refine ⟨m * 2 ^ q, measures_assemble wide top, ?_⟩
  have full : (f.half : ℚ) * 2 ^ q ≤ v := by
    rcases place.full with lowest | full
    · rwa [lowest]
    · exact full
  have off : |(m : ℚ) * 2 ^ q - v| = |v / 2 ^ q - m| * 2 ^ q := by
    rw [← abs_of_pos unit, ← abs_mul, abs_of_pos unit, sub_mul, div_mul_cancel₀ _ unit.ne',
      abs_sub_comm]
  calc |(m : ℚ) * 2 ^ q - v| = |v / 2 ^ q - m| * 2 ^ q := off
    _ ≤ 1 / 2 * 2 ^ q := mul_le_mul_of_nonneg_right near.1 unit.le
    _ ≤ v / f.limit := by
      rw [doubled, le_div_iff₀ (by linarith)]
      linarith

theorem Rounds.exact (wide : 0 < f.places) (ranged : f.least < f.most) (h : Rounds f negative v y)
    (filled : m ≠ 0) (short : m < f.limit) (least : f.least ≤ q) (same : (m : ℚ) * 2 ^ q = v)
    (high : v < f.half * 2 ^ f.most) : Measures y negative v := by
  have unit := two_zpow_pos q
  have positive : 0 < v := by
    rw [← same]
    have : (0 : ℚ) < m := by exact_mod_cast Nat.pos_of_ne_zero filled
    positivity
  obtain ⟨r, n, place, near, rfl⟩ := h.eq_assemble wide positive
  have below : r ≤ q := by
    apply place.le_of_below wide least
    rw [← same]
    have : (m : ℚ) < f.limit := by exact_mod_cast short
    exact mul_lt_mul_of_pos_right this unit
  -- At its place the number is whole.
  obtain ⟨k, gap⟩ := Int.eq_ofNat_of_zero_le (show 0 ≤ q - r by omega)
  have whole : v / 2 ^ r = ((m * 2 ^ k : Nat) : ℚ) := by
    have split : (2 : ℚ) ^ q = 2 ^ k * 2 ^ r := by
      rw [← zpow_natCast, ← zpow_add₀ (by norm_num)]
      congr 1
      omega
    rw [div_eq_iff (two_zpow_pos r).ne', ← same, split]
    push_cast
    ring
  have found : n = m * 2 ^ k := near.unique (by rw [whole]; exact nearest_self _)
  have measured : Measures (f.assemble negative n r) negative (n * 2 ^ r) :=
    measures_assemble wide (place.lt_most wide ranged high)
  rwa [found, ← whole, div_mul_cancel₀ _ (two_zpow_pos r).ne', ← found] at measured

end Rounded

section Range

variable {f : Format} {negative : Bool} {v : ℚ} {m : Nat} {q : Int} {x y : Binary}

/-- A number as the format has it: an infinity, or a significand that is short enough and of full
length unless the exponent is the least one. -/
def Belongs (f : Format) : Binary → Prop
  | finite _ m q => m < f.limit ∧ f.least ≤ q ∧ q ≤ f.most ∧ (q = f.least ∨ f.half ≤ m)
  | _ => True

def isFinite : Binary → Bool
  | finite .. => true
  | _ => false

theorem half_lt_limit (wide : 0 < f.places) : f.half < f.limit := by
  have half : 0 < f.half := Nat.pow_pos (by decide)
  have doubled := limit_eq f wide
  omega

theorem belongs_assemble (wide : 0 < f.places) (place : Place f v q)
    (near : Nearest (v / 2 ^ q) m) :
    (f.assemble negative m q).Belongs f := by
  obtain ⟨within, full⟩ := place.significand_bounds near
  have least := place.least
  unfold Format.assemble
  split
  · split
    · trivial
    · exact ⟨half_lt_limit wide, by omega, by omega, .inr (Nat.le_refl _)⟩
  · split
    · trivial
    · exact ⟨by omega, least, by omega, full⟩

theorem belongs_round (wide : 0 < f.places) (ranged : f.least < f.most) (negative : Bool)
    (num : Nat) {den : Nat} (positive : 0 < den) : (f.round negative num den).Belongs f := by
  by_cases filled : num = 0
  · rw [Format.round, if_pos filled]
    exact ⟨Nat.pow_pos (by decide), Int.le_refl _, ranged.le, .inl rfl⟩
  · obtain ⟨q, place, rounded⟩ := exists_round f wide negative filled positive
    rw [rounded]
    apply belongs_assemble wide place
    rw [← scaled_ratio num positive]
    exact nearest_divNearest _ (Nat.mul_pos positive (up_pos q))

theorem belongs_convert (wide : 0 < f.places) (ranged : f.least < f.most) (x : Binary) :
    (f.convert x).Belongs f := by
  cases x with
  | finite s m q => exact belongs_round wide ranged s _ (down_pos q)
  | _ => trivial

theorem isFinite_assemble (negative : Bool) (m : Nat) (q : Int) :
    (f.assemble negative m q).isFinite = true ↔
      (m = f.limit → q + 1 ≤ f.most) ∧ (m ≠ f.limit → q ≤ f.most) := by
  unfold Format.assemble
  split
  · split <;> simp_all [isFinite]
  · split <;> simp_all [isFinite]

theorem Place.full_iff (place : Place f v q) (near : Nearest (v / 2 ^ q) m)
    (wide : 0 < f.places) : m = f.limit ↔ (2 * f.limit - 1) * 2 ^ (q - 1) ≤ v := by
  obtain ⟨within, -⟩ := place.significand_bounds near
  have unit := two_zpow_pos q
  have last : (2 : ℚ) ^ q = 2 * 2 ^ (q - 1) := by rw [← two_zpow_succ, sub_add_cancel]
  have scale : v / 2 ^ q * 2 ^ q = v := div_mul_cancel₀ v unit.ne'
  have close := abs_le.mp near.1
  have doubled : f.limit = 2 * f.half := limit_eq f wide
  have half : ((2 * f.limit - 1 : ℚ)) * 2 ^ (q - 1) = (f.limit - 1 / 2) * 2 ^ q := by
    rw [last]
    ring
  rw [half]
  constructor
  · intro full
    have cast : (m : ℚ) = f.limit := by exact_mod_cast full
    rw [← le_div_iff₀ unit]
    linarith
  · intro large
    rw [← le_div_iff₀ unit] at large
    have whole : f.limit ≤ m + 1 := by
      have whole : (f.limit : ℚ) ≤ (m + 1 : Nat) := by
        push_cast
        linarith
      exact_mod_cast whole
    -- Half a place below the limit the tie goes up, since the limit is even.
    by_contra other
    have odd : m + 1 = f.limit := by omega
    have even := near.2 (by
      have cast : (m : ℚ) + 1 = f.limit := by exact_mod_cast odd
      rw [abs_of_nonneg (by linarith)]
      linarith)
    omega

/-- Rounding stays finite below the middle between the largest number and the first beyond it. -/
theorem Rounds.isFinite_iff (wide : 0 < f.places) (ranged : f.least < f.most)
    (h : Rounds f negative v y) (positive : 0 < v) :
    y.isFinite = true ↔ v < (2 * f.limit - 1) * 2 ^ (f.most - 1) := by
  obtain ⟨q, m, place, near, rfl⟩ := h.eq_assemble wide positive
  have half := two_zpow_pos (f.most - 1)
  have last : (2 : ℚ) ^ f.most = 2 * 2 ^ (f.most - 1) := by rw [← two_zpow_succ, sub_add_cancel]
  have one : (1 : ℚ) ≤ f.limit := by
    exact_mod_cast (show 0 < f.limit from Nat.pow_pos (by decide))
  rw [isFinite_assemble]
  rcases lt_trichotomy q f.most with low | rfl | high
  · have small : v < (2 * f.limit - 1) * 2 ^ (f.most - 1) := by
      have next := two_zpow_le (show q ≤ f.most - 1 by omega)
      have scaled := mul_le_mul_of_nonneg_left next (show (0 : ℚ) ≤ f.limit by linarith)
      have more := mul_le_mul_of_nonneg_right one half.le
      have below := place.below
      linarith
    exact iff_of_true ⟨fun _ => by omega, fun _ => by omega⟩ small
  · -- At the last place the significand decides.
    rw [← not_le, ← place.full_iff near wide]
    constructor
    · intro finite full
      have := finite.1 full
      omega
    · exact fun short => ⟨fun full => absurd full short, fun _ => le_rfl⟩
  · have large : ¬ v < (2 * f.limit - 1) * 2 ^ (f.most - 1) := by
      rcases place.full with least | full
      · omega
      · have next := two_zpow_le (show f.most + 1 ≤ q by omega)
        have doubled : f.limit = 2 * f.half := limit_eq f wide
        have cast : (f.limit : ℚ) = 2 * f.half := by exact_mod_cast doubled
        have scaled := mul_le_mul_of_nonneg_left next (show (0 : ℚ) ≤ f.half from Nat.cast_nonneg _)
        rw [two_zpow_succ, last] at scaled
        rw [cast]
        linarith
    refine iff_of_false (fun finite => ?_) large
    by_cases full : m = f.limit
    · have := finite.1 full
      omega
    · have := finite.2 full
      omega

end Range

end MutantSieve.Binary
