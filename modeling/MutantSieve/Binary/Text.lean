import MutantSieve.Binary.Shortest
import MutantSieve.Text.Digits

/-!
# Decimal texts of binary numbers

Three ways to write a number: in full without an exponent, in the notation of JSON, and with a
fixed number of places.
-/

set_option autoImplicit false

namespace MutantSieve

open Text

namespace Decimal

def zeros (n : Nat) : List Char := List.replicate n '0'

def plain (d : Decimal) : List Char :=
  let ds := digits d.coefficient
  let point : Int := d.exponent + Int.ofNat ds.length
  if 0 ≤ d.exponent then ds ++ zeros d.exponent.toNat
  else if 0 < point then ds.take point.toNat ++ '.' :: ds.drop point.toNat
  else '0' :: '.' :: zeros (-point).toNat ++ ds

def scientific (d : Decimal) : List Char :=
  let ds := digits d.coefficient
  let e : Int := d.exponent + Int.ofNat ds.length - 1
  let mark := if 0 ≤ e then '+' else '-'
  match ds with
  | [] => []
  | c :: [] => c :: 'e' :: mark :: digits e.natAbs
  | c :: r => c :: '.' :: r ++ 'e' :: mark :: digits e.natAbs

/-- The decimal exponents of the first digit for which JSON text stays positional. -/
structure Positional where
  first : Int
  last : Int

def notated (p : Positional) (d : Decimal) : List Char :=
  let e : Int := d.exponent + Int.ofNat (digits d.coefficient).length - 1
  if d.coefficient = 0 then ['0', '.', '0']
  else if p.first ≤ e ∧ e ≤ p.last then
    if 0 ≤ d.exponent then d.plain ++ ['.', '0'] else d.plain
  else d.scientific

end Decimal

namespace Binary

def signed (negative : Bool) (s : List Char) : List Char := if negative then '-' :: s else s

def Format.display (f : Format) : Binary → List Char
  | .finite s m q => signed s (f.shortest true m q).plain
  | .infinite s => signed s ['i', 'n', 'f']
  | .undefined => ['N', 'a', 'N']

/-- Singles stay positional from `10 ^ -6` to below `10 ^ 13`, doubles from `10 ^ -5` to below
`10 ^ 16`. -/
def Format.positional (f : Format) : Decimal.Positional :=
  if f.places = 24 then ⟨-6, 12⟩ else ⟨-5, 15⟩

/-- The number as JSON text, which has none but `null` for what is not finite. -/
def Format.json (f : Format) : Binary → List Char
  | .finite s m q => signed s ((f.shortest false m q).notated f.positional)
  | _ => ['n', 'u', 'l', 'l']

/-- `num / den` with a fixed number of places, rounded to the nearest, ties to the even digit. -/
def fixed (places num den : Nat) : List Char :=
  let unit := Nat.pow 10 places
  let n := divNearest (num * unit) den
  let whole := digits (n / unit)
  let fraction := digits (n % unit)
  whole ++ '.' :: Decimal.zeros (places - fraction.length) ++ fraction

def fixedText (places : Nat) : Binary → List Char
  | .finite s m q => signed s (fixed places (m * up q) (down q))
  | .infinite s => signed s ['i', 'n', 'f']
  | .undefined => ['N', 'a', 'N']

end Binary

end MutantSieve
