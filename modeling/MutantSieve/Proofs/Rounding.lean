import MutantSieve.Binary.Basic

/-!
# The significand of a rounded number

Rounding chooses the last place so that the significand fits into the format: where the first guess
leaves it too long, one place more is enough.
-/

set_option autoImplicit false

namespace MutantSieve.Binary

theorem up_pos (q : Int) : 0 < up q := Nat.pow_pos (by decide)

theorem down_pos (q : Int) : 0 < down q := Nat.pow_pos (by decide)

theorem divNearest_le (a b : Nat) : divNearest a b ≤ a / b + 1 := by
  simp only [divNearest]
  split
  · omega
  split
  · omega
  split <;> omega

theorem quotient_lt_limit (f : Format) {num den : Nat} (positive : 0 < den) {first : Int}
    (h : (num.log2 : Int) - (den.log2 : Int) - f.places ≤ first) :
    num * down (first + 1) / (den * up (first + 1)) < f.limit := by
  have above : num < 2 ^ (num.log2 + 1) := Nat.lt_log2_self
  have below : 2 ^ den.log2 ≤ den := Nat.log2_self_le (by omega)
  have powers : 2 ^ (num.log2 + 1) * down (first + 1) ≤
      f.limit * (2 ^ den.log2 * up (first + 1)) := by
    show 2 ^ (num.log2 + 1) * 2 ^ (-(first + 1)).toNat ≤
      2 ^ f.places * (2 ^ den.log2 * 2 ^ (first + 1).toNat)
    rw [← Nat.pow_add, ← Nat.pow_add, ← Nat.pow_add]
    apply Nat.pow_le_pow_right (by decide)
    omega
  rw [Nat.div_lt_iff_lt_mul (Nat.mul_pos positive (up_pos _))]
  calc num * down (first + 1) < 2 ^ (num.log2 + 1) * down (first + 1) :=
        Nat.mul_lt_mul_of_pos_right above (down_pos _)
    _ ≤ f.limit * (2 ^ den.log2 * up (first + 1)) := powers
    _ ≤ f.limit * (den * up (first + 1)) :=
        Nat.mul_le_mul_left _ (Nat.mul_le_mul_right _ below)

/-- The significand that is found is not above the limit of the format; if it reaches the limit, the
last place moves on. -/
theorem exists_place (f : Format) (negative : Bool) {num den : Nat} (filled : num ≠ 0)
    (positive : 0 < den) :
    ∃ m q, m ≤ f.limit ∧ f.round negative num den =
      if m = f.limit then
        if f.most < q + 1 then .infinite negative else .finite negative f.half (q + 1)
      else if f.most < q then .infinite negative
      else .finite negative m q := by
  have fitting : ∀ q, num * down q / (den * up q) < f.limit →
      divNearest (num * down q) (den * up q) ≤ f.limit :=
    fun q below => Nat.le_trans (divNearest_le _ _) below
  have guess : (num.log2 : Int) - (den.log2 : Int) - f.places ≤
      max f.least ((num.log2 : Int) - (den.log2 : Int) - f.places) := Int.le_max_right _ _
  rw [Format.round, if_neg filled]
  simp only
  split
  · rename_i below
    exact ⟨_, _, fitting _ below, rfl⟩
  · exact ⟨_, _, fitting _ (quotient_lt_limit f positive guess), rfl⟩

def Fits (f : Format) : Binary → Prop
  | finite _ m _ => m < f.limit
  | _ => True

theorem fits_round (f : Format) (wide : 0 < f.places) (negative : Bool) (num : Nat) {den : Nat}
    (positive : 0 < den) : (f.round negative num den).Fits f := by
  have half : f.half < f.limit :=
    Nat.pow_lt_pow_right (by decide) (Nat.sub_lt wide (by decide))
  by_cases filled : num = 0
  · rw [Format.round, if_pos filled]
    exact Nat.pow_pos (by decide)
  obtain ⟨m, q, within, rounded⟩ := exists_place f negative filled positive
  rw [rounded]
  split
  · split
    · trivial
    · exact half
  split
  · trivial
  · exact Nat.lt_of_le_of_ne within ‹_›

theorem fits_convert (f : Format) (wide : 0 < f.places) (x : Binary) : (f.convert x).Fits f := by
  cases x with
  | finite s m q => exact fits_round f wide s (m * up q) (down_pos q)
  | _ => trivial

end MutantSieve.Binary
