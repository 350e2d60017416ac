import MutantSieve.Proofs.Json.Decimal
import MutantSieve.Proofs.Reading

/-!
# Singles in JSON text

Every single that is written as a number is read back from it. Most of them are far enough from the
middles to their neighbours; the powers of two, whose lower neighbour is nearer, and two singles
with a short decimal next to their middle are read one by one.
-/

set_option autoImplicit false

namespace MutantSieve.Json

open Binary

section Ranges

variable {m : Nat} {q : Int}

theorem shortest_range (tieUp : Bool) (filled : m ≠ 0) (short : m < 2 ^ 24) (low : -149 ≤ q)
    (high : q ≤ 104) :
    (single.shortest tieUp m q).coefficient ≠ 0 ∧
      (single.shortest tieUp m q).coefficient ≤ 10 ^ 9 ∧
      -60 ≤ (single.shortest tieUp m q).exponent ∧ (single.shortest tieUp m q).exponent ≤ 40 := by
  obtain ⟨grid, d, chosen, ten, found⟩ := exists_grid tieUp filled short low high
  obtain ⟨kept, less, -⟩ := Decimal.strip_bounds 20 d chosen.filled
  have same : (d.strip 20).value = d.value := Decimal.value_strip 20 d
  rw [← found] at kept less same
  generalize single.shortest tieUp m q = e at *
  -- The decimal is no farther than half a place from a number in the range of singles.
  have near := (interval_contains filled d.value).mp chosen.inside
  have place := two_zpow_pos (q - 1)
  have quarter : (2 : ℚ) ^ (q - 2) ≤ 2 ^ (q - 1) := two_zpow_le (by omega)
  have doubled := two_zpow_pred q
  have bounds : (m : ℚ) * 2 ^ q - 2 ^ (q - 1) ≤ d.value ∧ d.value ≤ m * 2 ^ q + 2 ^ (q - 1) := by
    simp only at near
    split at near <;> split at near <;> constructor <;> linarith [near.1, near.2]
  have one : (1 : ℚ) ≤ m := by exact_mod_cast Nat.pos_of_ne_zero filled
  have short : (m : ℚ) + 1 ≤ 2 ^ 24 := by exact_mod_cast short
  have unit := two_zpow_pos q
  have lower := mul_le_mul_of_nonneg_right one unit.le
  have upper := mul_le_mul_of_nonneg_right short unit.le
  have tens := Decimal.ten_zpow_pos e.exponent
  have kept' : (1 : ℚ) ≤ e.coefficient := by exact_mod_cast Nat.pos_of_ne_zero kept
  have less' : (e.coefficient : ℚ) ≤ 10 ^ 9 := by exact_mod_cast less.trans ten
  have measure : e.coefficient * 10 ^ e.exponent = d.value := same
  have first := mul_le_mul_of_nonneg_right kept' tens.le
  have last := mul_le_mul_of_nonneg_right less' tens.le
  refine ⟨kept, less.trans ten, ?_, ?_⟩
  · by_contra small
    have small : (10 : ℚ) ^ e.exponent ≤ 10 ^ (-61 : Int) := Decimal.ten_zpow_le (by omega)
    have least : (2 : ℚ) ^ (-150 : Int) ≤ 2 ^ (q - 1) := two_zpow_le (by omega)
    have gap : (10 : ℚ) ^ 9 * 10 ^ (-61 : Int) < 2 ^ (-150 : Int) := by norm_num
    linarith
  · by_contra large
    have large : (10 : ℚ) ^ (41 : Int) ≤ 10 ^ e.exponent := Decimal.ten_zpow_le (by omega)
    have most : (2 : ℚ) ^ q ≤ 2 ^ (104 : Int) := two_zpow_le high
    have gap : (2 : ℚ) ^ 24 * 2 ^ (104 : Int) < 10 ^ (41 : Int) := by norm_num
    linarith

end Ranges

/-- Whether the parts that the text of a single spells are read back to it. -/
def restores (negative : Bool) (m : Nat) (q : Int) : Bool :=
  let parts := (single.shortest false m q).spelled single.positional
  match fromParts negative parts.1 parts.2 with
  | .float y => decide (single.convert y = .finite negative m q)
  | _ => false

theorem round_negate (f : Format) (negative : Bool) (num den : Nat) :
    f.round (!negative) num den = (f.round negative num den).negate := by
  simp only [Format.round]
  split_ifs <;> rfl

theorem convert_negate (f : Format) (y : Binary) : f.convert y.negate = (f.convert y).negate := by
  cases y with
  | finite s m q => exact round_negate f s _ _
  | infinite s => rfl
  | undefined => rfl

theorem restores_signed (negative : Bool) (m : Nat) (q : Int) :
    restores negative m q = restores false m q := by
  cases negative with
  | false => rfl
  | true =>
    have flip (x : Binary) : x.negate = .finite true m q ↔ x = .finite false m q := by
      cases x <;> simp [negate]
    simp only [restores, fromParts]
    generalize scale 5 _ _ = scaled
    cases scaled with
    | float y => simp [withSign, convert_negate, flip]
    | integer i => rfl
    | huge => rfl

theorem restores_zero : restores false 0 (-149) = true := by decide +kernel

theorem restores_powers : ∀ i < 253, restores false (2 ^ 23) (Int.ofNat i - 148) = true := by
  decide +kernel

theorem restores_awkward :
    restores false 11420669 (-107) = true ∧ restores false 11420670 (-107) = true := by
  decide +kernel

section Texts

variable {m : Nat} {q : Int}

theorem spells_single (filled : m ≠ 0) (short : m < 2 ^ 24) (low : -149 ≤ q) (high : q ≤ 104)
    (negative : Bool) :
    ∃ n : Number, n.text = single.json (.finite negative m q) ∧
      n.parts.value = fromParts negative ((single.shortest false m q).spelled single.positional).1
        ((single.shortest false m q).spelled single.positional).2 := by
  obtain ⟨kept, few, low, high⟩ := shortest_range false filled short low high
  obtain ⟨n, text, value⟩ :=
    (Decimal.spells_notated single.positional (single.shortest false m q)).text negative
  refine ⟨n, text, value ⟨few.trans (by decide), ?_, ?_⟩⟩
  · have fits : (single.shortest false m q).coefficient ≤ 10 ^ 14 := few.trans (by decide)
    exact (Decimal.spelled_bounds (k := 14) kept (by decide) fits).2.1.trans (by decide)
  · have length := Text.digits_length_le (k := 9) (lt_of_le_of_lt few (by decide))
    have filled := (isRun_digits (single.shortest false m q).coefficient).1
    have filled := List.length_pos_iff.mpr filled
    have range : 60 ≤ largestExponent := by decide
    rw [Decimal.first, Int.ofNat_eq_natCast]
    omega

theorem exists_single {negative : Bool} (belongs : (Binary.finite negative m q).Belongs single) :
    ∃ n : Number, n.text = single.json (.finite negative m q) ∧
      ∃ y, n.parts.value = .float y ∧ single.convert y = .finite negative m q := by
  obtain ⟨short, low, high, full⟩ := belongs
  have short : m < 2 ^ 24 := short
  have low : -149 ≤ q := low
  have high : q ≤ 104 := high
  have full : q = -149 ∨ 2 ^ 23 ≤ m := full
  have of_restores : restores false m q = true → ∃ y,
      fromParts negative ((single.shortest false m q).spelled single.positional).1
        ((single.shortest false m q).spelled single.positional).2 = .float y ∧
      single.convert y = .finite negative m q := by
    rw [← restores_signed negative]
    unfold restores
    simp only
    split
    · rename_i y read
      exact fun same => ⟨y, read, of_decide_eq_true same⟩
    · simp
  by_cases filled : m = 0
  · obtain rfl := filled
    obtain rfl : q = -149 := by omega
    obtain ⟨n, text, value⟩ :=
      (Decimal.spells_notated single.positional (single.shortest false 0 (-149))).text negative
    refine ⟨n, text, ?_⟩
    rw [value (by decide +kernel)]
    exact of_restores restores_zero
  obtain ⟨n, text, value⟩ := spells_single filled short low high negative
  refine ⟨n, text, ?_⟩
  rw [value]
  -- Below a power of two the middle is nearer, so the powers are tried one by one.
  by_cases power : m = 2 ^ 23 ∧ -149 < q
  · obtain ⟨rfl, above⟩ := power
    have restored := restores_powers (q + 148).toNat (by omega)
    rw [Int.ofNat_eq_natCast, Int.toNat_of_nonneg (by omega), add_sub_cancel_right] at restored
    exact of_restores restored
  by_cases awkward : Awkward m q
  · obtain ⟨rfl, rfl | rfl⟩ := awkward
    · exact of_restores restores_awkward.1
    · exact of_restores restores_awkward.2
  obtain ⟨kept, few, least, most⟩ := shortest_range false filled short low high
  obtain ⟨nonzero, fits, power⟩ := Decimal.spelled_bounds (p := single.positional) (k := 14) kept
    (by decide) (few.trans (by decide))
  exact convert_read negative filled short low high (by omega) awkward
    (Decimal.value_spelled single.positional _) nonzero (lt_of_le_of_lt fits (by decide)) (by omega)
    power

end Texts

end MutantSieve.Json
