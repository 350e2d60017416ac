import MutantSieve.Json.Numeral
import MutantSieve.Proofs.Midpoints

/-!
# Reading a decimal in two roundings

A significand is joined with a power of ten, which is itself rounded, by one rounded multiplication
or division. So the double that is read differs from the decimal by two roundings at most; where the
power of ten and the decimal are doubles it is the decimal. Rounding this double to a single gives
the single whose shortest decimal it was.
-/

set_option autoImplicit false

namespace MutantSieve.Json

open Binary

section Doubles

variable {negative : Bool} {v : ℚ} {m n : Nat} {q e : Int} {x y : Binary}

def Moderate (v : ℚ) : Prop := 1 / 10 ^ 200 ≤ v ∧ v ≤ 10 ^ 200

theorem moderate_tens : (10 : ℚ) ^ 200 ≤ 2 ^ (800 : Int) := by
  calc (10 : ℚ) ^ 200 ≤ (2 ^ 4) ^ 200 := pow_le_pow_left₀ (by norm_num) (by norm_num) 200
    _ = 2 ^ 800 := (pow_mul 2 4 200).symm
    _ = 2 ^ (800 : Int) := (zpow_natCast 2 800).symm

theorem double_half : (Binary.double.half : ℚ) = 2 ^ (52 : Int) := by
  norm_num [Binary.double, Format.half]

theorem Moderate.low (h : Moderate v) : (Binary.double.half : ℚ) * 2 ^ Binary.double.least ≤ v := by
  rw [double_half, ← zpow_add₀ (by norm_num)]
  calc (2 : ℚ) ^ (52 + Binary.double.least) ≤ 2 ^ (-800 : Int) := two_zpow_le (by decide)
    _ = 1 / 2 ^ (800 : Int) := by rw [zpow_neg, one_div]
    _ ≤ 1 / 10 ^ 200 := one_div_le_one_div_of_le (by positivity) moderate_tens
    _ ≤ v := h.1

theorem Moderate.high (h : Moderate v) : v < Binary.double.half * 2 ^ Binary.double.most := by
  rw [double_half, ← zpow_add₀ (by norm_num)]
  calc v ≤ 10 ^ 200 := h.2
    _ ≤ 2 ^ (800 : Int) := moderate_tens
    _ < 2 ^ (52 + Binary.double.most) := zpow_lt_zpow_right₀ (by norm_num) (by decide)

theorem Moderate.close (h : Moderate v) (rounds : Rounds Binary.double negative v y) :
    ∃ w, Measures y negative w ∧ |w - v| ≤ v / 2 ^ 53 := by
  have limit : (Binary.double.limit : ℚ) = 2 ^ 53 := by norm_num [Binary.double, Format.limit]
  rw [← limit]
  exact rounds.close (by decide) (by decide) h.low h.high

theorem Moderate.exact (h : Moderate v) (rounds : Rounds Binary.double negative v y)
    (filled : m ≠ 0) (short : m < 2 ^ 53) (least : -1074 ≤ q) (same : (m : ℚ) * 2 ^ q = v) :
    Measures y negative v :=
  rounds.exact (by decide) (by decide) filled short least same h.high

theorem exists_power (small : n ≤ 100) :
    ∃ p, Measures (power n) false p ∧ |p - 10 ^ n| ≤ 10 ^ n / 2 ^ 53 ∧ (n ≤ 22 → p = 10 ^ n) := by
  have rounds : Rounds Binary.double false ((10 : ℚ) ^ n) (power n) := by
    have cast : ((Nat.pow 10 n : Nat) : ℚ) = 10 ^ n := Nat.cast_pow 10 n
    rw [← cast]
    exact rounds_nat Binary.double false _
  have moderate : Moderate ((10 : ℚ) ^ n) := by
    constructor
    · exact le_trans (by norm_num) (one_le_pow₀ (by norm_num : (1 : ℚ) ≤ 10))
    · exact pow_le_pow_right₀ (by norm_num) (by omega)
  by_cases exact : n ≤ 22
  · have short : 5 ^ n < 2 ^ 53 :=
      lt_of_le_of_lt (Nat.pow_le_pow_right (by decide) exact) (by norm_num)
    have same : ((5 ^ n : Nat) : ℚ) * 2 ^ (n : Int) = 10 ^ n := by
      push_cast
      rw [zpow_natCast, ← mul_pow]
      norm_num
    have measured := moderate.exact rounds (Nat.pow_pos (by decide)).ne' short (by omega) same
    exact ⟨_, measured, by rw [sub_self, abs_zero]; positivity, fun _ => rfl⟩
  · obtain ⟨p, measured, close⟩ := moderate.close rounds
    exact ⟨p, measured, close, fun small => absurd small exact⟩

theorem moderate_of_near {r d : ℚ} (low : 1 / 10 ^ 150 ≤ d) (high : d ≤ 10 ^ 150)
    (near : |r - d| ≤ d / (2 ^ 53 - 1)) : Moderate r := by
  obtain ⟨under, beyond⟩ := abs_le.mp near
  have positive : (0 : ℚ) < 1 / 10 ^ 150 := by positivity
  have half : d / (2 ^ 53 - 1) ≤ d / 2 :=
    div_le_div_of_nonneg_left (by linarith) (by norm_num) (by norm_num)
  constructor
  · have : (1 : ℚ) / 10 ^ 200 ≤ 1 / 10 ^ 150 / 2 := by norm_num
    linarith
  · have : (2 : ℚ) * 10 ^ 150 ≤ 10 ^ 200 := by norm_num
    have : (0 : ℚ) ≤ 10 ^ 150 := by positivity
    linarith

section Errors

variable {p t : ℚ} (positive : 0 < v) (tens : 0 < t) (close : |p - t| ≤ t / 2 ^ 53)
include positive tens close

theorem product_near : |v * p - v * t| ≤ v * t / (2 ^ 53 - 1) := by
  rw [← mul_sub, abs_mul, abs_of_pos positive, mul_div_assoc]
  apply mul_le_mul_of_nonneg_left _ positive.le
  exact close.trans (div_le_div_of_nonneg_left tens.le (by norm_num) (by norm_num))

theorem quotient_near (above : 0 < p) : |v / p - v / t| ≤ v / t / (2 ^ 53 - 1) := by
  have gap : 0 < (2 : ℚ) ^ 53 - 1 := by norm_num
  have under := (abs_le.mp close).1
  have off : v / p - v / t = v * (t - p) / (p * t) := by
    field_simp
  rw [off, abs_div, abs_mul, abs_of_pos positive, abs_of_pos (mul_pos above tens), abs_sub_comm,
    div_div, div_le_div_iff₀ (mul_pos above tens) (mul_pos tens gap)]
  have short : |p - t| * (2 ^ 53 - 1) ≤ p := by
    calc |p - t| * (2 ^ 53 - 1) ≤ t / 2 ^ 53 * (2 ^ 53 - 1) :=
          mul_le_mul_of_nonneg_right close gap.le
      _ = t - t / 2 ^ 53 := by ring
      _ ≤ p := by linarith
  calc v * |p - t| * (t * (2 ^ 53 - 1)) = |p - t| * (2 ^ 53 - 1) * (v * t) := by ring
    _ ≤ p * (v * t) := mul_le_mul_of_nonneg_right short (mul_pos positive tens).le
    _ = v * (p * t) := by ring

end Errors

theorem exists_scaled (steps : Nat) (h : Measures x false v) (positive : 0 < v)
    (small : e.natAbs ≤ 100) (low : 1 / 10 ^ 150 ≤ v * 10 ^ e) (high : v * 10 ^ e ≤ 10 ^ 150) :
    ∃ y r, scale (steps + 1) x e = .float y ∧ Rounds Binary.double false r y ∧ Moderate r ∧
      |r - v * 10 ^ e| ≤ v * 10 ^ e / (2 ^ 53 - 1) ∧ (e.natAbs ≤ 22 → r = v * 10 ^ e) := by
  obtain ⟨p, measured, close, exact⟩ := exists_power small
  generalize power : (10 : ℚ) ^ e.natAbs = t at close exact
  have tens : 0 < t := by
    rw [← power]
    positivity
  by_cases up : 0 ≤ e
  · have whole : (10 : ℚ) ^ e = t := by
      rw [← power, ← zpow_natCast, Int.natAbs_of_nonneg up]
    rw [whole] at low high ⊢
    have near := product_near positive tens close
    have moderate := moderate_of_near low high near
    have rounds := rounds_times Binary.double h measured
    obtain ⟨w, ⟨m, q, finite, -⟩, -⟩ := moderate.close rounds
    refine ⟨_, v * p, ?_, rounds, moderate, near, fun least => by rw [exact least]⟩
    rw [scale, if_pos (by omega), if_pos up, finite]
  · have part : (10 : ℚ) ^ e = 1 / t := by
      rw [← power, one_div, ← zpow_natCast, ← zpow_neg]
      congr 1
      omega
    rw [part, mul_one_div] at low high ⊢
    have above : 0 < p := by
      have under := (abs_le.mp close).1
      have most : t / 2 ^ 53 ≤ t / 2 :=
        div_le_div_of_nonneg_left tens.le (by norm_num) (by norm_num)
      linarith
    have near := quotient_near positive tens close above
    refine ⟨_, v / p, ?_, rounds_over Binary.double h measured above.ne',
      moderate_of_near low high near, near, fun least => by rw [exact least]⟩
    rw [scale, if_pos (by omega), if_neg up]

theorem significand_range {significand : Nat} (filled : significand ≠ 0)
    (short : significand < 2 ^ 53) (small : e.natAbs ≤ 100) :
    1 / 10 ^ 150 ≤ significand * (10 : ℚ) ^ e ∧ significand * (10 : ℚ) ^ e ≤ 10 ^ 150 := by
  have one : (1 : ℚ) ≤ significand := by exact_mod_cast Nat.pos_of_ne_zero filled
  have most : (significand : ℚ) ≤ 2 ^ 53 := by exact_mod_cast short.le
  have least : (10 : ℚ) ^ (-100 : Int) ≤ 10 ^ e := Decimal.ten_zpow_le (by omega)
  have largest : (10 : ℚ) ^ e ≤ 10 ^ (100 : Int) := Decimal.ten_zpow_le (by omega)
  constructor
  · calc (1 : ℚ) / 10 ^ 150 ≤ 10 ^ (-100 : Int) := by norm_num
      _ ≤ 10 ^ e := least
      _ ≤ significand * 10 ^ e := le_mul_of_one_le_left (Decimal.ten_zpow_pos e).le one
  · calc significand * (10 : ℚ) ^ e ≤ 2 ^ 53 * 10 ^ (100 : Int) := by gcongr
      _ ≤ 10 ^ 150 := by norm_num

theorem measures_significand {significand : Nat} (filled : significand ≠ 0)
    (short : significand < 2 ^ 53) :
    Measures (Binary.double.ofInt significand) false significand := by
  have rounds : Rounds Binary.double false significand (Binary.double.ofInt significand) := by
    rw [Format.ofInt, Int.natAbs_natCast, decide_eq_false (by omega)]
    exact rounds_nat Binary.double false significand
  have moderate : Moderate (significand : ℚ) := by
    have one : (1 : ℚ) ≤ significand := by exact_mod_cast Nat.pos_of_ne_zero filled
    have most : (significand : ℚ) ≤ 2 ^ 53 := by exact_mod_cast short.le
    exact ⟨le_trans (by norm_num) one, most.trans (by norm_num)⟩
  exact moderate.exact rounds filled short (by omega : (-1074 : Int) ≤ 0) (by simp)

/-- The double that is read is off by two roundings, and by none if all its parts are doubles. -/
theorem exists_read {significand : Nat} (filled : significand ≠ 0) (short : significand < 2 ^ 53)
    (small : e.natAbs ≤ 100) :
    ∃ y w, scale 5 (Binary.double.ofInt significand) e = .float y ∧ Measures y false w ∧
      |w - significand * 10 ^ e| ≤ 2 * (significand * 10 ^ e) / (2 ^ 53 - 1) ∧
      (e.natAbs ≤ 22 → ∀ (m : Nat) (q : Int), m ≠ 0 → m < 2 ^ 53 → -1074 ≤ q →
        (m : ℚ) * 2 ^ q = significand * 10 ^ e → w = significand * 10 ^ e) := by
  have positive : (0 : ℚ) < significand := by exact_mod_cast Nat.pos_of_ne_zero filled
  obtain ⟨low, high⟩ := significand_range filled short small
  obtain ⟨y, r, read, rounds, moderate, near, exact⟩ :=
    exists_scaled 4 (measures_significand filled short) positive small low high
  generalize (significand : ℚ) * 10 ^ e = d at *
  -- The second rounding changes nothing where the power and the product are doubles.
  by_cases settled : e.natAbs ≤ 22 ∧
      ∃ (m : Nat) (q : Int), m ≠ 0 ∧ m < 2 ^ 53 ∧ -1074 ≤ q ∧ (m : ℚ) * 2 ^ q = d
  · obtain ⟨power, m, q, nonzero, fits, least, same⟩ := settled
    obtain rfl := exact power
    have measured := moderate.exact rounds nonzero fits least same
    refine ⟨y, r, read, measured, ?_, fun _ _ _ _ _ _ _ => rfl⟩
    rw [sub_self, abs_zero]
    have : (0 : ℚ) < 1 / 10 ^ 150 := by positivity
    have : (0 : ℚ) < 2 ^ 53 - 1 := by norm_num
    have : 0 < r := by linarith
    positivity
  · obtain ⟨w, measured, close⟩ := moderate.close rounds
    refine ⟨y, w, read, measured, ?_, ?_⟩
    swap
    · exact fun power m q nonzero fits least same =>
        absurd ⟨power, m, q, nonzero, fits, least, same⟩ settled
    have above := (abs_le.mp near).2
    have gap : (0 : ℚ) < 2 ^ 53 - 1 := by norm_num
    have bound : r / 2 ^ 53 ≤ d / (2 ^ 53 - 1) := by
      rw [div_le_div_iff₀ (by positivity) gap]
      have scaled : d / (2 ^ 53 - 1) * (2 ^ 53 - 1) = d := div_mul_cancel₀ d gap.ne'
      nlinarith
    calc |w - d| ≤ |w - r| + |r - d| := abs_sub_le w r d
      _ ≤ d / (2 ^ 53 - 1) + d / (2 ^ 53 - 1) := add_le_add (close.trans bound) near
      _ = 2 * d / (2 ^ 53 - 1) := by ring

end Doubles

section Singles

variable {m n : Nat} {q e : Int} {d : Decimal} {v w b : ℚ}

theorem keeps_side (close : |w - v| ≤ 2 * v / (2 ^ 53 - 1)) (positive : 0 < b)
    (apart : v = b ∧ w = v ∨ 5 * b < 2 ^ 54 * |v - b|) :
    (v < b → w < b) ∧ (b < v → b < w) ∧ (v = b → w = b) := by
  obtain ⟨under, beyond⟩ := abs_le.mp close
  rcases apart with ⟨rfl, rfl⟩ | far
  · simp
  refine ⟨fun less => ?_, fun more => ?_, fun same => ?_⟩
  · rw [abs_of_neg (by linarith)] at far
    linarith
  · rw [abs_of_pos (by linarith)] at far
    linarith
  · rw [same, sub_self, abs_zero] at far
    linarith

/-- The two singles whose middle a short decimal comes close to. -/
def Awkward (m : Nat) (q : Int) : Prop := q = -107 ∧ (m = 11420669 ∨ m = 11420670)

/-- The middle between two neighbours, counted in halves of a place. -/
def IsMiddle (m n : Nat) : Prop := n + 1 = 2 * m ∨ n = 2 * m + 1

theorem IsMiddle.distance (middle : IsMiddle m n) :
    |(m : ℚ) * 2 ^ q - n * 2 ^ (q - 1)| = 2 ^ (q - 1) := by
  rw [two_zpow_pred q, ← mul_assoc, ← sub_mul, abs_mul, abs_of_pos (two_zpow_pos (q - 1))]
  rcases middle with below | above
  · have below : (n : ℚ) + 1 = 2 * m := by exact_mod_cast below
    rw [show (m : ℚ) * 2 - n = 1 by linarith, abs_one, one_mul]
  · have above : (n : ℚ) = 2 * m + 1 := by exact_mod_cast above
    rw [show (m : ℚ) * 2 - n = -1 by linarith, abs_neg, abs_one, one_mul]

theorem contained_near (filled : m ≠ 0) (even : m ≠ single.half ∨ q ≤ single.least)
    (inside : (single.interval m q).Contains v) : |v - m * 2 ^ q| ≤ 2 ^ (q - 1) := by
  have near := (interval_even filled even).mp inside
  split at near
  · exact near
  · exact near.le

theorem contained_le (filled : m ≠ 0) (short : m < 2 ^ 24)
    (even : m ≠ single.half ∨ q ≤ single.least)
    (inside : (single.interval m q).Contains v) : v ≤ 2 ^ 24 * 2 ^ q := by
  have above := (abs_le.mp (contained_near filled even inside)).2
  have doubled := two_zpow_pred q
  have place := two_zpow_pos (q - 1)
  have short : (m : ℚ) + 1 ≤ 2 ^ 24 := by exact_mod_cast short
  have bounded := mul_le_mul_of_nonneg_right short (two_zpow_pos q).le
  linarith

theorem middle_apart (filled : m ≠ 0) (short : m < 2 ^ 24) (low : -149 ≤ q) (high : q ≤ 104)
    (even : m ≠ single.half ∨ q ≤ single.least) (usual : ¬ Awkward m q)
    (chosen : (single.interval m q).Chosen (m * 2 ^ q) e d) (middle : IsMiddle m n) :
    (d.value = n * 2 ^ (q - 1) ∧ Decimal.gridExponent q ≤ e ∧
        (Decimal.gridExponent q).natAbs ≤ 15) ∨
      5 * ((n : ℚ) * 2 ^ (q - 1)) < 2 ^ 54 * |d.value - n * 2 ^ (q - 1)| := by
  obtain ⟨wide, narrow⟩ := Decimal.gridExponent_bounds low high
  have place := two_zpow_pos (q - 1)
  have doubled := two_zpow_pred q
  have near := chosen.half (interval_around filled even)
  have range : (n : ℚ) ≤ 2 ^ 25 := by
    have range : n ≤ 2 ^ 25 := by
      rcases middle with below | above <;> omega
    exact_mod_cast range
  by_cases fine : e < Decimal.gridExponent q
  · -- A tenth of the grid step is so narrow that the decimal stays near the number.
    right
    have tenth : (10 : ℚ) ^ e ≤ 10 ^ (Decimal.gridExponent q - 1) := Decimal.ten_zpow_le (by omega)
    have triangle := abs_sub_le ((m : ℚ) * 2 ^ q) d.value (n * 2 ^ (q - 1))
    rw [abs_sub_comm _ d.value, middle.distance] at triangle
    have bounded : (n : ℚ) * 2 ^ (q - 1) ≤ 2 ^ 25 * 2 ^ (q - 1) :=
      mul_le_mul_of_nonneg_right range place.le
    rw [doubled] at narrow near triangle
    linarith
  · -- The decimal is on the grid.
    obtain ⟨k, rise⟩ := Int.eq_ofNat_of_zero_le (show 0 ≤ e - Decimal.gridExponent q by omega)
    have point : d.value = (d.coefficient * 10 ^ k : Nat) * 10 ^ Decimal.gridExponent q := by
      rw [Decimal.value, chosen.step, show e = (k : Int) + Decimal.gridExponent q by omega,
        zpow_add₀ (by norm_num), zpow_natCast]
      push_cast
      ring
    have separate := Decimal.separate_middle low high
      (c := d.coefficient * 10 ^ k) (n := n) ?_ ?_ ?_ ?_ ?_
    · rw [Decimal.Separate, ← point] at separate
      exact separate.imp_left fun h => ⟨h.1, by omega, h.2⟩
    · exact Nat.mul_ne_zero chosen.filled (Nat.pow_pos (by decide)).ne'
    · have tens := Decimal.ten_zpow_pos (Decimal.gridExponent q)
      have bounded : d.value ≤ 2 ^ 24 * 10 ^ Decimal.gridExponent q := by
        calc d.value ≤ 2 ^ 24 * 2 ^ q := contained_le filled short even chosen.inside
          _ ≤ 2 ^ 24 * 10 ^ Decimal.gridExponent q := by gcongr
      rw [point] at bounded
      exact_mod_cast le_of_mul_le_mul_right bounded tens
    · rcases middle with below | above <;> omega
    · rcases middle with below | above <;> omega
    · rintro ⟨there, rfl⟩
      refine usual ⟨there, ?_⟩
      rcases middle with below | above <;> omega

theorem nearest_between
    (above : (2 * m - 1) * 2 ^ (q - 1) < w ∨ m % 2 = 0 ∧ (2 * m - 1) * 2 ^ (q - 1) = w)
    (below : w < (2 * m + 1) * 2 ^ (q - 1) ∨ m % 2 = 0 ∧ w = (2 * m + 1) * 2 ^ (q - 1)) :
    Nearest (w / 2 ^ q) m := by
  have unit := two_zpow_pos q
  have doubled := two_zpow_pred q
  have lower : (2 * m - 1) * 2 ^ (q - 1) ≤ w := above.elim le_of_lt fun h => h.2.le
  have upper : w ≤ (2 * m + 1) * 2 ^ (q - 1) := below.elim le_of_lt fun h => h.2.le
  have product : (m : ℚ) * 2 ^ q = 2 * (m * 2 ^ (q - 1)) := by
    rw [doubled]
    ring
  have split : w / 2 ^ q - m = (w - m * 2 ^ q) / 2 ^ q := by
    field_simp
  rw [Nearest, split, abs_div, abs_of_pos unit, div_le_iff₀ unit, div_eq_iff unit.ne']
  constructor
  · rw [abs_le]
    constructor <;> linarith
  · intro tie
    rcases abs_choice (w - m * 2 ^ q) with side | side <;> rw [side] at tie
    · rcases below with h | h
      · linarith
      · exact h.1
    · rcases above with h | h
      · linarith
      · exact h.1

theorem convert_between {negative : Bool} {y : Binary} (measured : Measures y negative w)
    (filled : m ≠ 0) (short : m < 2 ^ 24) (low : -149 ≤ q) (high : q ≤ 104)
    (full : q = -149 ∨ 2 ^ 23 < m)
    (above : (2 * m - 1) * 2 ^ (q - 1) < w ∨ m % 2 = 0 ∧ (2 * m - 1) * 2 ^ (q - 1) = w)
    (below : w < (2 * m + 1) * 2 ^ (q - 1) ∨ m % 2 = 0 ∧ w = (2 * m + 1) * 2 ^ (q - 1)) :
    single.convert y = .finite negative m q := by
  have unit := two_zpow_pos q
  have place := two_zpow_pos (q - 1)
  have doubled := two_zpow_pred q
  have product : (m : ℚ) * 2 ^ q = 2 * (m * 2 ^ (q - 1)) := by
    rw [doubled]
    ring
  have one : (1 : ℚ) ≤ m := by exact_mod_cast Nat.pos_of_ne_zero filled
  have short' : (m : ℚ) + 1 ≤ 2 ^ 24 := by exact_mod_cast short
  have lower : (2 * m - 1) * 2 ^ (q - 1) ≤ w := above.elim le_of_lt fun h => h.2.le
  have upper : w ≤ (2 * m + 1) * 2 ^ (q - 1) := below.elim le_of_lt fun h => h.2.le
  have least : 2 ^ (q - 1) ≤ (2 * m - 1) * (2 : ℚ) ^ (q - 1) :=
    le_mul_of_one_le_left place.le (by linarith)
  have limit : (single.limit : ℚ) = 2 ^ 24 := by norm_num [single, Format.limit]
  have half : (single.half : ℚ) = 2 ^ 23 := by norm_num [single, Format.half]
  refine (rounds_convert single measured).eq_finite (by decide) (by linarith) ⟨low, ?_, ?_⟩ ?_
    short high
  · rw [limit]
    have := mul_le_mul_of_nonneg_right short' unit.le
    linarith
  · rcases full with lowest | full
    · exact .inl lowest
    · right
      rw [half]
      have full : (2 : ℚ) ^ 23 + 1 ≤ m := by exact_mod_cast full
      have := mul_le_mul_of_nonneg_right full unit.le
      linarith
  · exact nearest_between above below

theorem exists_grid (tieUp : Bool) (filled : m ≠ 0) (short : m < 2 ^ 24) (low : -149 ≤ q)
    (high : q ≤ 104) :
    ∃ e d, (single.interval m q).Chosen (m * 2 ^ q) e d ∧ d.coefficient ≤ 10 ^ 9 ∧
      single.shortest tieUp m q = d.strip 20 := by
  have up : Binary.up q ≤ 2 ^ 104 := Nat.pow_le_pow_right (by decide) (by omega)
  have down : Binary.down q ≤ 2 ^ 149 := Nat.pow_le_pow_right (by decide) (by omega)
  apply exists_chosen filled (by decide)
  · calc m * Binary.up q ≤ 2 ^ 24 * 2 ^ 104 := Nat.mul_le_mul short.le up
      _ < 10 ^ 400 := by decide +kernel
  · exact down.trans (by decide +kernel)
  · omega

theorem keeps_between (filled : m ≠ 0) (even : m ≠ single.half ∨ q ≤ single.least)
    (inside : (single.interval m q).Contains v) (close : |w - v| ≤ 2 * v / (2 ^ 53 - 1))
    (sided : ∀ n, IsMiddle m n → v = n * 2 ^ (q - 1) ∧ w = v ∨
      5 * ((n : ℚ) * 2 ^ (q - 1)) < 2 ^ 54 * |v - n * 2 ^ (q - 1)|) :
    ((2 * m - 1) * 2 ^ (q - 1) < w ∨ m % 2 = 0 ∧ (2 * m - 1) * 2 ^ (q - 1) = w) ∧
      (w < (2 * m + 1) * 2 ^ (q - 1) ∨ m % 2 = 0 ∧ w = (2 * m + 1) * 2 ^ (q - 1)) := by
  have place := two_zpow_pos (q - 1)
  have one : (1 : ℚ) ≤ m := by exact_mod_cast Nat.pos_of_ne_zero filled
  have product : (m : ℚ) * 2 ^ q = 2 * (m * 2 ^ (q - 1)) := by
    rw [two_zpow_pred q]
    ring
  have cast : ((2 * m - 1 : Nat) : ℚ) = 2 * m - 1 := by
    rw [Nat.cast_sub (by omega)]
    push_cast
    ring
  have cast' : ((2 * m + 1 : Nat) : ℚ) = 2 * m + 1 := by
    push_cast
    ring
  have lower := sided (2 * m - 1) (.inl (by omega))
  have upper := sided (2 * m + 1) (.inr rfl)
  rw [cast] at lower
  rw [cast'] at upper
  have under := keeps_side close (mul_pos (by linarith) place) lower
  have beyond := keeps_side close (mul_pos (by linarith) place) upper
  have inside := (interval_even filled even).mp inside
  split at inside
  · rename_i parity
    obtain ⟨least, most⟩ := abs_le.mp inside
    constructor
    · rcases lt_or_eq_of_le (show (2 * m - 1) * 2 ^ (q - 1) ≤ v by linarith) with less | tie
      · exact .inl (under.2.1 less)
      · exact .inr ⟨parity, (under.2.2 tie.symm).symm⟩
    · rcases lt_or_eq_of_le (show v ≤ (2 * m + 1) * 2 ^ (q - 1) by linarith) with less | tie
      · exact .inl (beyond.1 less)
      · exact .inr ⟨parity, beyond.2.2 tie⟩
  · obtain ⟨least, most⟩ := abs_lt.mp inside
    exact ⟨.inl (under.2.1 (by linarith)), .inl (beyond.1 (by linarith))⟩

theorem exponent_le {d : Decimal} (filled : d.coefficient ≠ 0)
    (high : Decimal.gridExponent q ≤ 15) (low : -149 ≤ q) (top : q ≤ 104) 
    (most : d.value ≤ 2 ^ 24 * 2 ^ q) : d.exponent ≤ 22 := by
  have one : (1 : ℚ) ≤ d.coefficient := by exact_mod_cast Nat.pos_of_ne_zero filled
  have wide := (Decimal.gridExponent_bounds low top).1
  have above : (10 : ℚ) ^ d.exponent < 10 ^ (23 : Int) := by
    calc (10 : ℚ) ^ d.exponent ≤ d.value := by
          rw [Decimal.value]
          exact le_mul_of_one_le_left (Decimal.ten_zpow_pos _).le one
      _ ≤ 2 ^ 24 * 2 ^ q := most
      _ ≤ 2 ^ 24 * 10 ^ Decimal.gridExponent q := by gcongr
      _ ≤ 2 ^ 24 * 10 ^ (15 : Int) := by
        gcongr
        norm_num
      _ < 10 ^ (23 : Int) := by norm_num
  have below := (zpow_lt_zpow_iff_right₀ (by norm_num : (1 : ℚ) < 10)).mp above
  omega

theorem measures_signed {y : Binary} (measured : Measures y false w) (negative : Bool) :
    Measures (if negative then y.negate else y) negative w := by
  obtain ⟨n, r, rfl, measure⟩ := measured
  cases negative <;> exact ⟨n, r, rfl, measure⟩

/-- The shortest decimal of a single that is no power of two is read back to it, however its value
is split into a significand and a power of ten. -/
theorem convert_read (negative : Bool) {tieUp : Bool} {significand : Nat} (filled : m ≠ 0)
    (short : m < 2 ^ 24) (low : -149 ≤ q) (high : q ≤ 104) (full : q = -149 ∨ 2 ^ 23 < m)
    (usual : ¬ Awkward m q)
    (value : (significand : ℚ) * 10 ^ e = (single.shortest tieUp m q).value)
    (nonzero : significand ≠ 0) (fits : significand < 2 ^ 53) (small : e.natAbs ≤ 100)
    (power : e = (single.shortest tieUp m q).exponent ∨ e = -1) :
    ∃ y, fromParts negative significand e = .float y ∧
      single.convert y = .finite negative m q := by
  have even : m ≠ single.half ∨ q ≤ single.least := by
    have half : single.half = 2 ^ 23 := by decide
    have least : single.least = -149 := rfl
    omega
  obtain ⟨grid, d, chosen, -, found⟩ := exists_grid tieUp filled short low high
  obtain ⟨stripped, -, grown⟩ := Decimal.strip_bounds 20 d chosen.filled
  rw [← found] at stripped grown
  have same : (single.shortest tieUp m q).value = d.value := by rw [found, Decimal.value_strip]
  have most := contained_le filled short even chosen.inside
  rw [← same] at most
  rw [same] at value
  obtain ⟨y, w, read, measured, close, exact⟩ := exists_read nonzero fits small
  rw [value] at close exact
  -- A decimal that is a middle is read without an error.
  have sided : ∀ n, IsMiddle m n →
      d.value = n * 2 ^ (q - 1) ∧ w = d.value ∨
        5 * ((n : ℚ) * 2 ^ (q - 1)) < 2 ^ 54 * |d.value - n * 2 ^ (q - 1)| := by
    intro n middle
    refine (middle_apart filled short low high even usual chosen middle).imp_left ?_
    rintro ⟨tie, on, within⟩
    have exponent : e.natAbs ≤ 22 := by
      have top := exponent_le stripped (by omega) low high most
      have bottom := chosen.step
      omega
    refine ⟨tie, exact exponent n (q - 1) ?_ ?_ (by omega) tie.symm⟩
    · rcases middle with h | h <;> omega
    · rcases middle with h | h <;> omega
  obtain ⟨above, below⟩ := keeps_between filled even chosen.inside close sided
  exact ⟨if negative then y.negate else y, by rw [fromParts, read, withSign],
    convert_between (measures_signed measured negative) filled short low high full above below⟩

end Singles

end MutantSieve.Json
