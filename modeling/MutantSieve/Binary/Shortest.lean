import MutantSieve.Binary.Basic

/-!
# Shortest decimals

Among the decimals that round to a given number, the ones with the fewest digits, and of these the
nearest.
-/

set_option autoImplicit false

namespace MutantSieve

structure Decimal where
  coefficient : Nat
  exponent : Int
  deriving DecidableEq, Repr, Inhabited

namespace Decimal

def up (e : Int) : Nat := Nat.pow 10 e.toNat

def down (e : Int) : Nat := Nat.pow 10 (-e).toNat

def strip : Nat → Decimal → Decimal
  | 0, d => d
  | fuel + 1, d =>
    if d.coefficient ≠ 0 ∧ d.coefficient % 10 = 0 then
      strip fuel ⟨d.coefficient / 10, d.exponent + 1⟩
    else d

def shortfall : Nat → Nat → Nat → Nat
  | 0, _, _ => 0
  | fuel + 1, num, den => if den ≤ num then 0 else shortfall fuel (10 * num) den + 1

def leading (num den : Nat) : Int :=
  if den ≤ num then Int.ofNat (shortfall 400 1 (num / den + 1)) - 1
  else -Int.ofNat (shortfall 400 num den)

end Decimal

namespace Binary

/-- The reals that round to `m * 2 ^ q`, as bounds counted in units of `2 ^ (q - 2)`. Below the
first number of a new exponent the gap is half as wide; the bounds belong to the interval when the
significand is even. -/
structure Interval where
  low : Nat
  high : Nat
  closed : Bool
  unit : Int

def Format.interval (f : Format) (m : Nat) (q : Int) : Interval :=
  { low := 4 * m - (if m = f.half ∧ f.least < q then 1 else 2)
    high := 4 * m + 2
    closed := decide (m % 2 = 0)
    unit := q - 2 }

def Interval.holds (i : Interval) (c : Nat) (e : Int) : Bool :=
  let value := c * Decimal.up e * Binary.down i.unit
  let scale := Binary.up i.unit * Decimal.down e
  if i.closed then decide (i.low * scale ≤ value) && decide (value ≤ i.high * scale)
  else decide (i.low * scale < value) && decide (value < i.high * scale)

/-- The neighbour of `num / den` on the grid of step `10 ^ e` that lies in the interval; of two the
nearer one, in a tie the even one or, if `tieUp`, the larger one. -/
def Interval.neighbour (i : Interval) (tieUp : Bool) (num den : Nat) (e : Int) : Option Decimal :=
  let a := num * Decimal.down e
  let b := den * Decimal.up e
  let c := a / b
  let rest := a % b
  match i.holds c e && decide (c ≠ 0), i.holds (c + 1) e with
  | true, false => some ⟨c, e⟩
  | false, true => some ⟨c + 1, e⟩
  | true, true =>
    if 2 * rest < b then some ⟨c, e⟩
    else if b < 2 * rest then some ⟨c + 1, e⟩
    else if tieUp || decide (c % 2 = 1) then some ⟨c + 1, e⟩
    else some ⟨c, e⟩
  | false, false => none

/-- The shortest decimal that rounds to `m * 2 ^ q`. Seventeen digits are always enough. -/
def Format.shortest (f : Format) (tieUp : Bool) (m : Nat) (q : Int) : Decimal :=
  if m = 0 then ⟨0, 0⟩
  else
    let num := m * Binary.up q
    let den := Binary.down q
    let i := f.interval m q
    let lead := Decimal.leading num den
    let found := (List.range 17).findSome? fun n => i.neighbour tieUp num den (lead - Int.ofNat n)
    (found.getD ⟨num, 0⟩).strip 20

end Binary

end MutantSieve
