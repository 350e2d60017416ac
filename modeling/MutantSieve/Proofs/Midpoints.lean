import MutantSieve.Proofs.Decimal

/-!
# Short decimals and the middles between singles

A decimal that is read in two roundings gives the single next to it only if it is not too near to
the middle between two singles. How near it can come is a question about whole points next to a
line: a coefficient `c` and an odd number `n` for which `c * 10 ^ e` is close to `n * 2 ^ (q - 1)`.
Two points on both sides of the line, next to each other in the sense that their determinant is one,
leave no point between them that is shorter than both together. So for every exponent it is enough
to look at two points, which a search along the line finds.
-/

set_option autoImplicit false

namespace MutantSieve

namespace Decimal

/-- Points on both sides of a line: `k * a` is not below `p * b`, `k' * a` not above `p' * b`. -/
structure Bracket where
  k : Nat
  p : Nat
  k' : Nat
  p' : Nat
  deriving DecidableEq, Repr

namespace Bracket

def above (b : Bracket) (x y : Nat) : Nat := b.k * x - b.p * y

def below (b : Bracket) (x y : Nat) : Nat := b.p' * y - b.k' * x

def start (x y : Nat) : Bracket := ⟨1, x / y, 1, x / y + 1⟩

/-- Moves the farther of the two points along the other one until it is the nearer one, or no
further step is within the limit. -/
def narrow (x y limit : Nat) : Nat → Bracket → Bracket
  | 0, b => b
  | fuel + 1, b =>
    if limit < b.k + b.k' then b
    else if b.below x y ≤ b.above x y then
      let room := (limit - b.k) / b.k'
      let t := if b.below x y = 0 then room else min (b.above x y / b.below x y) room
      narrow x y limit fuel { b with k := b.k + t * b.k', p := b.p + t * b.p' }
    else
      let room := (limit - b.k') / b.k
      let t := if b.above x y = 0 then room else min (b.below x y / b.above x y) room
      narrow x y limit fuel { b with k' := b.k' + t * b.k, p' := b.p' + t * b.p }

/-- The two points lie on both sides of the line `k * x = p * y` next to each other, and together
they are beyond the limit. -/
def encloses (b : Bracket) (x y limit : Nat) : Bool :=
  decide (b.k * b.p' = b.k' * b.p + 1) && decide (b.p * y ≤ b.k * x) &&
    decide (b.k' * x ≤ b.p' * y) && decide (limit < b.k + b.k')

theorem exists_coordinates {b : Bracket} {x y limit : Nat} (h : b.encloses x y limit = true)
    (c n : Nat) :
    ∃ u v : Int, (c : Int) = u * b.k + v * b.k' ∧ (n : Int) = u * b.p + v * b.p' ∧
      (c * x - n * y : Int) = u * (b.above x y : Nat) - v * (b.below x y : Nat) := by
  simp only [encloses, Bool.and_eq_true, decide_eq_true_eq] at h
  obtain ⟨⟨⟨unit, high⟩, low⟩, -⟩ := h
  have unit : (b.k : Int) * b.p' = b.k' * b.p + 1 := by exact_mod_cast unit
  have first : (c : Int) = (c * b.p' - n * b.k') * b.k + (n * b.k - c * b.p) * b.k' := by
    linear_combination (-c : Int) * unit
  have second : (n : Int) = (c * b.p' - n * b.k') * b.p + (n * b.k - c * b.p) * b.p' := by
    linear_combination (-n : Int) * unit
  refine ⟨c * b.p' - n * b.k', n * b.k - c * b.p, first, second, ?_⟩
  rw [above, below, Nat.cast_sub high, Nat.cast_sub low]
  push_cast
  linear_combination (x : Int) * first - (y : Int) * second

/-- A point within the limit is a multiple of one of the two and as many times as far from the line,
or it is as far as both together. -/
theorem split_point {b : Bracket} {x y limit c n : Nat} (h : b.encloses x y limit = true)
    (filled : c ≠ 0) (within : c ≤ limit) :
    (∃ t : Nat, n = t * b.p ∧ |(c * x - n * y : Int)| = (t * b.above x y : Nat)) ∨
      (∃ t : Nat, n = t * b.p' ∧ |(c * x - n * y : Int)| = (t * b.below x y : Nat)) ∨
      ((b.above x y + b.below x y : Nat) : Int) ≤ |(c * x - n * y : Int)| := by
  obtain ⟨u, v, first, second, off⟩ := exists_coordinates h c n
  simp only [encloses, Bool.and_eq_true, decide_eq_true_eq] at h
  have beyond : (c : Int) < b.k + b.k' := by exact_mod_cast Nat.lt_of_le_of_lt within h.2
  have positive : (0 : Int) < c := by exact_mod_cast Nat.pos_of_ne_zero filled
  rw [off]
  generalize b.above x y = above
  generalize b.below x y = below
  have kNat : (0 : Int) ≤ b.k := Int.natCast_nonneg _
  have kNat' : (0 : Int) ≤ b.k' := Int.natCast_nonneg _
  have aboveNat : (0 : Int) ≤ above := Int.natCast_nonneg _
  have belowNat : (0 : Int) ≤ below := Int.natCast_nonneg _
  -- A point that is shorter than both together lies on neither or on one of them, not between.
  have shorter : 0 < u → 0 < v → False := by
    intro upos vpos
    have := le_mul_of_one_le_left kNat (show 1 ≤ u by omega)
    have := le_mul_of_one_le_left kNat' (show 1 ≤ v by omega)
    linarith
  have positiveOne : 0 < u ∨ 0 < v := by
    by_contra neither
    rw [not_or, not_lt, not_lt] at neither
    have := mul_nonpos_of_nonpos_of_nonneg neither.1 kNat
    have := mul_nonpos_of_nonpos_of_nonneg neither.2 kNat'
    linarith
  rcases lt_trichotomy u 0 with uneg | rfl | upos
  · have vpos : 0 < v := positiveOne.resolve_left (by omega)
    refine .inr (.inr (le_trans ?_ (neg_le_abs _)))
    have := le_mul_of_one_le_left aboveNat (show 1 ≤ -u by omega)
    have := le_mul_of_one_le_left belowNat (show 1 ≤ v by omega)
    push_cast
    linarith
  · have vpos : 0 < v := positiveOne.resolve_left (lt_irrefl 0)
    obtain ⟨t, rfl⟩ := Int.eq_ofNat_of_zero_le vpos.le
    rw [zero_mul, zero_add] at second
    refine .inr (.inl ⟨t, by exact_mod_cast second, ?_⟩)
    rw [zero_mul, zero_sub, abs_neg, abs_of_nonneg (mul_nonneg vpos.le belowNat)]
    exact (Nat.cast_mul t below).symm
  rcases lt_trichotomy v 0 with vneg | rfl | vpos
  · refine .inr (.inr (le_trans ?_ (le_abs_self _)))
    have := le_mul_of_one_le_left aboveNat (show 1 ≤ u by omega)
    have := le_mul_of_one_le_left belowNat (show 1 ≤ -v by omega)
    push_cast
    linarith
  · obtain ⟨t, rfl⟩ := Int.eq_ofNat_of_zero_le upos.le
    rw [zero_mul, add_zero] at second
    refine .inl ⟨t, by exact_mod_cast second, ?_⟩
    rw [zero_mul, sub_zero, abs_of_nonneg (mul_nonneg upos.le aboveNat)]
    exact (Nat.cast_mul t above).symm
  · exact (shorter upos vpos).elim

end Bracket

def gridExponent (q : Int) : Int := -leading (Binary.down q) (Binary.up q)

/-- What is asked of one of the two points: on the line, with powers of ten that are exact doubles,
or not too near to it, or without a multiple that is an odd number of 25 binary digits. One point
comes closer; it belongs to a pair of singles of its own. -/
def clear (q e : Int) (y p off : Nat) : Bool :=
  (decide (off = 0) && decide (e.natAbs ≤ 15)) || decide (5 * (p * y) < 2 ^ 54 * off) ||
    decide (p % 2 = 0) || decide (2 ^ 25 ≤ p) || (decide (q = -107) && decide (p = 22841339))

def apart (q : Int) : Bool :=
  let e := gridExponent q
  let x := up e * Binary.down (q - 1)
  let y := down e * Binary.up (q - 1)
  let b := Bracket.narrow x y (2 ^ 24) 64 (Bracket.start x y)
  decide (Binary.up q * down e ≤ up e * Binary.down q) &&
    decide (2 ^ 26 * (up (e - 1) * Binary.down q) ≤ (2 ^ 26 - 1) * (Binary.up q * down (e - 1))) &&
    b.encloses x y (2 ^ 24) && decide (5 * y < 2 ^ 29 * (b.above x y + b.below x y)) &&
    clear q e y b.p (b.above x y) && clear q e y b.p' (b.below x y)

theorem apart_all : ∀ i < 254, apart (Int.ofNat i - 149) = true := by
  decide +kernel

section Middles

variable {q e : Int} {c n t y p : Nat}

theorem apart_place (low : -149 ≤ q) (high : q ≤ 104) : apart q = true := by
  have checked := apart_all (q + 149).toNat (by omega)
  rwa [Int.ofNat_eq_natCast, Int.toNat_of_nonneg (by omega), add_sub_cancel_right] at checked

theorem gridExponent_bounds (low : -149 ≤ q) (high : q ≤ 104) :
    (2 : ℚ) ^ q ≤ 10 ^ gridExponent q ∧
      (2 : ℚ) ^ 26 * 10 ^ (gridExponent q - 1) ≤ (2 ^ 26 - 1) * 2 ^ q := by
  have checked := apart_place low high
  simp only [apart, Bool.and_eq_true, decide_eq_true_eq] at checked
  obtain ⟨⟨⟨⟨⟨wide, narrow⟩, -⟩, -⟩, -⟩, -⟩ := checked
  have place := Binary.down_pos_rat q
  constructor
  · have below : (0 : ℚ) < down (gridExponent q) := by exact_mod_cast down_pos _
    have wide : (Binary.up q : ℚ) * down (gridExponent q) ≤
        up (gridExponent q) * Binary.down q := by exact_mod_cast wide
    rw [up_eq, Binary.up_eq] at wide
    have scaled : (2 : ℚ) ^ q * (Binary.down q * down (gridExponent q)) ≤
        10 ^ gridExponent q * (Binary.down q * down (gridExponent q)) := by linarith
    exact le_of_mul_le_mul_right scaled (mul_pos place below)
  · have below : (0 : ℚ) < down (gridExponent q - 1) := by exact_mod_cast down_pos _
    have narrow : (2 : ℚ) ^ 26 * (up (gridExponent q - 1) * Binary.down q) ≤
        (2 ^ 26 - 1) * (Binary.up q * down (gridExponent q - 1)) := by
      have narrow : ((2 ^ 26 * (up (gridExponent q - 1) * Binary.down q) : Nat) : ℚ) ≤
          ((2 ^ 26 - 1) * (Binary.up q * down (gridExponent q - 1)) : Nat) := by
        exact_mod_cast narrow
      push_cast at narrow
      norm_num at narrow ⊢
      exact narrow
    rw [up_eq, Binary.up_eq] at narrow
    have scaled : (2 : ℚ) ^ 26 * 10 ^ (gridExponent q - 1) *
        (Binary.down q * down (gridExponent q - 1)) ≤
        (2 ^ 26 - 1) * 2 ^ q * (Binary.down q * down (gridExponent q - 1)) := by linarith
    exact le_of_mul_le_mul_right scaled (mul_pos place below)

/-- A decimal on the grid and a middle: they are equal and the power of ten is an exact double, or
they differ by more than two roundings. -/
def Separate (e : Int) (c n : Nat) (q : Int) : Prop :=
  ((c : ℚ) * 10 ^ e = n * 2 ^ (q - 1) ∧ e.natAbs ≤ 15) ∨
    5 * ((n : ℚ) * 2 ^ (q - 1)) < 2 ^ 54 * |(c : ℚ) * 10 ^ e - n * 2 ^ (q - 1)|

theorem separate_iff : Separate e c n q ↔
    let x := up e * Binary.down (q - 1)
    let y := down e * Binary.up (q - 1)
    (c * x = n * y ∧ e.natAbs ≤ 15) ∨ (5 * (n * y) : Int) < 2 ^ 54 * |(c * x - n * y : Int)| := by
  have scale : (0 : ℚ) < down e * Binary.down (q - 1) := by
    exact_mod_cast Nat.mul_pos (down_pos e) (Binary.down_pos (q - 1))
  have left : ((c * (up e * Binary.down (q - 1)) : Nat) : ℚ) =
      c * 10 ^ e * (down e * Binary.down (q - 1)) := by
    push_cast
    rw [up_eq]
    ring
  have right : ((n * (down e * Binary.up (q - 1)) : Nat) : ℚ) =
      n * 2 ^ (q - 1) * (down e * Binary.down (q - 1)) := by
    push_cast
    rw [Binary.up_eq]
    ring
  simp only [Separate]
  generalize up e * Binary.down (q - 1) = x at *
  generalize down e * Binary.up (q - 1) = y at *
  have gap : ((|(c * x - n * y : Int)| : Int) : ℚ) =
      |(c : ℚ) * 10 ^ e - n * 2 ^ (q - 1)| * (down e * Binary.down (q - 1)) := by
    push_cast at left right ⊢
    rw [left, right, ← sub_mul, abs_mul, abs_of_pos scale]
  apply or_congr
  · apply and_congr_left'
    rw [← Nat.cast_inj (R := ℚ), left, right, mul_left_inj' scale.ne']
  · have far : ((2 ^ 54 * |(c * x - n * y : Int)| : Int) : ℚ) =
        2 ^ 54 * |(c : ℚ) * 10 ^ e - n * 2 ^ (q - 1)| * (down e * Binary.down (q - 1)) := by
      rw [Int.cast_mul, gap]
      push_cast
      ring
    have size : ((5 * (n * y) : Int) : ℚ) =
        5 * ((n : ℚ) * 2 ^ (q - 1)) * (down e * Binary.down (q - 1)) := by
      push_cast at right ⊢
      rw [right]
      ring
    rw [← Int.cast_lt (R := ℚ), far, size, mul_lt_mul_iff_left₀ scale]

theorem clear_multiple {off : Nat} (h : clear q e y p off = true) {d : Int}
    (far : |d| = (t * off : Nat)) (odd : (t * p) % 2 = 1) (short : t * p < 2 ^ 25)
    (usual : ¬ (q = -107 ∧ t * p = 22841339)) :
    (d = 0 ∧ e.natAbs ≤ 15) ∨ 5 * ((t * p : Nat) * y : Int) < 2 ^ 54 * |d| := by
  have filled : 0 < t := by
    by_contra zero
    have zero : t = 0 := by omega
    simp [zero] at odd
  rw [far]
  simp only [clear, Bool.or_eq_true, Bool.and_eq_true, decide_eq_true_eq] at h
  rcases h with (((exact | more) | even) | long) | special
  · rw [exact.1, Nat.mul_zero, Nat.cast_zero, abs_eq_zero] at far
    exact .inl ⟨far, exact.2⟩
  · right
    have scaled : t * (5 * (p * y)) < t * (2 ^ 54 * off) := Nat.mul_lt_mul_of_pos_left more filled
    have scaled : 5 * (t * p * y) < 2 ^ 54 * (t * off) := by linarith
    exact_mod_cast scaled
  · rw [Nat.mul_mod, even, Nat.mul_zero] at odd
    cases odd
  · have := Nat.le_mul_of_pos_left p filled
    omega
  · -- Twice this point is beyond the range.
    obtain ⟨place, point⟩ := special
    have one : t = 1 := by
      by_contra more
      have twice := Nat.mul_le_mul_right p (show 2 ≤ t by omega)
      omega
    exact absurd ⟨place, by rw [one, Nat.one_mul, point]⟩ usual

/-- No decimal of a coefficient within the range is too near to a middle of two singles, one of the
middles excepted. -/
theorem separate_middle (low : -149 ≤ q) (high : q ≤ 104) (filled : c ≠ 0) (within : c ≤ 2 ^ 24)
    (odd : n % 2 = 1) (short : n < 2 ^ 25) (usual : ¬ (q = -107 ∧ n = 22841339)) :
    Separate (gridExponent q) c n q := by
  have checked := apart_place low high
  simp only [apart, Bool.and_eq_true, decide_eq_true_eq] at checked
  obtain ⟨⟨⟨⟨-, encloses⟩, wide⟩, first⟩, second⟩ := checked
  rw [separate_iff]
  simp only
  generalize up (gridExponent q) * Binary.down (q - 1) = x at *
  generalize down (gridExponent q) * Binary.up (q - 1) = y at *
  generalize Bracket.narrow x y (2 ^ 24) 64 (Bracket.start x y) = b at *
  have same : c * x = n * y ↔ (c * x - n * y : Int) = 0 := by
    rw [sub_eq_zero]
    exact_mod_cast Iff.rfl
  rw [same]
  rcases Bracket.split_point (n := n) encloses filled within with
    ⟨t, rfl, far⟩ | ⟨t, rfl, far⟩ | far
  · exact clear_multiple first far odd short usual
  · exact clear_multiple second far odd short usual
  · right
    have wide : (5 * y : Int) < 2 ^ 29 * (b.above x y + b.below x y : Nat) := by
      exact_mod_cast wide
    have short : (n : Int) ≤ 2 ^ 25 := by exact_mod_cast short.le
    have size : (0 : Int) ≤ y := Int.natCast_nonneg y
    calc (5 * (n * y) : Int) = n * (5 * y) := by ring
      _ ≤ 2 ^ 25 * (5 * y) := mul_le_mul_of_nonneg_right short (by positivity)
      _ < 2 ^ 25 * (2 ^ 29 * (b.above x y + b.below x y : Nat)) := by linarith
      _ = 2 ^ 54 * (b.above x y + b.below x y : Nat) := by ring
      _ ≤ 2 ^ 54 * |(c * x - n * y : Int)| := mul_le_mul_of_nonneg_left far (by norm_num)

end Middles

end Decimal

end MutantSieve
