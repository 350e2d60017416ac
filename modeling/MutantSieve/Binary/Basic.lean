/-!
# Binary floating point

Numbers `m * 2 ^ q` with a significand of bounded length, in two widths, together with the
infinities and the undefined number. Every operation rounds the exact result once, to the nearest
number and in a tie to the even significand.
-/

set_option autoImplicit false

namespace MutantSieve

/-- A width: the binary digits of the significand, and the least and the largest exponent of its
last place. -/
structure Binary.Format where
  places : Nat
  least : Int
  most : Int
  deriving DecidableEq, Repr

/-- A number, written as significand and exponent of the last place. -/
inductive Binary where
  | finite (negative : Bool) (significand : Nat) (exponent : Int)
  | infinite (negative : Bool)
  | undefined
  deriving DecidableEq, Repr, Inhabited

namespace Binary

def single : Format := ⟨24, -149, 104⟩

def double : Format := ⟨53, -1074, 971⟩

/-- The whole number next to `a / b`; a tie goes to the even one. -/
def divNearest (a b : Nat) : Nat :=
  let whole := a / b
  let rest := a % b
  if 2 * rest < b then whole
  else if b < 2 * rest then whole + 1
  else if whole % 2 = 0 then whole
  else whole + 1

def Format.limit (f : Format) : Nat := Nat.pow 2 f.places

def Format.half (f : Format) : Nat := Nat.pow 2 (f.places - 1)

/-- The numerator of `2 ^ q`. -/
def up (q : Int) : Nat := Nat.pow 2 q.toNat

/-- The denominator of `2 ^ q`. -/
def down (q : Int) : Nat := Nat.pow 2 (-q).toNat

def Format.round (f : Format) (negative : Bool) (num den : Nat) : Binary :=
  if num = 0 then .finite negative 0 f.least
  else
    let magnitude : Int := (Nat.log2 num : Int) - (Nat.log2 den : Int)
    let first : Int := max f.least (magnitude - f.places)
    let q : Int :=
      if num * down first / (den * up first) < f.limit then first else first + 1
    let m := divNearest (num * down q) (den * up q)
    if m = f.limit then
      if f.most < q + 1 then .infinite negative else .finite negative f.half (q + 1)
    else if f.most < q then .infinite negative
    else .finite negative m q

def Format.ofInt (f : Format) (i : Int) : Binary := f.round (decide (i < 0)) i.natAbs 1

def isNegative : Binary → Bool
  | finite s _ _ => s
  | infinite s => s
  | undefined => false

def negate : Binary → Binary
  | finite s m q => finite (!s) m q
  | infinite s => infinite (!s)
  | undefined => undefined

def Format.convert (f : Format) : Binary → Binary
  | finite s m q => f.round s (m * up q) (down q)
  | infinite s => .infinite s
  | undefined => .undefined

def Format.times (f : Format) : Binary → Binary → Binary
  | finite s m q, finite t n r => f.round (s != t) (m * n * up (q + r)) (down (q + r))
  | infinite s, finite t n _ => if n = 0 then .undefined else .infinite (s != t)
  | finite s m _, infinite t => if m = 0 then .undefined else .infinite (s != t)
  | infinite s, infinite t => .infinite (s != t)
  | _, _ => .undefined

def Format.over (f : Format) : Binary → Binary → Binary
  | finite s m q, finite t n r =>
    if n = 0 then
      if m = 0 then .undefined else .infinite (s != t)
    else f.round (s != t) (m * up (q - r)) (n * down (q - r))
  | infinite s, finite t _ _ => .infinite (s != t)
  | finite s _ _, infinite t => .finite (s != t) 0 f.least
  | _, _ => .undefined

def Format.sum (f : Format) : Binary → Binary → Binary
  | finite _ m q, finite _ n r =>
    f.round false (m * up q * down r + n * up r * down q) (down q * down r)
  | undefined, _ => .undefined
  | _, undefined => .undefined
  | _, _ => .infinite false

/-- The bit pattern of a double: sign, eleven bits of exponent, fifty-two of fraction. -/
def bits : Binary → Nat
  | finite s m q =>
    let sign := if s then 2048 * double.half else 0
    if m < double.half then sign + m
    else sign + (q + 1075).toNat * double.half + (m - double.half)
  | infinite s => (if s then 2048 * double.half else 0) + 2047 * double.half
  | undefined => 2047 * double.half + double.half / 2

end Binary

end MutantSieve
