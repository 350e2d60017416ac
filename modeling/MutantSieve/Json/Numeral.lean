import MutantSieve.Data
import MutantSieve.Text.Digits

/-!
# Numbers in JSON text

A number is read into a significand of at most 64 bits and a power of ten. Digits that do not fit
into the significand only count for the power. The double is found from the two by one rounded
multiplication or division, so it may differ from the nearest one in its last place.
-/

set_option autoImplicit false

namespace MutantSieve.Json

structure Parts where
  negative : Bool
  whole : List Char
  fraction : Option (List Char)
  exponent : Option (Bool × List Char)
  deriving DecidableEq, Repr

def largest : Nat := Word.size 64 - 1

def largestExponent : Nat := Word.size 31 - 1

def absorb (significand : Nat) : List Char → Nat × List Char
  | [] => (significand, [])
  | c :: r =>
    if largest < 10 * significand + Text.digitValue c then (significand, c :: r)
    else absorb (10 * significand + Text.digitValue c) r

def power (n : Nat) : Binary := Binary.double.round false (Nat.pow 10 n) 1

/-- `x` times a power of ten. Powers below `10 ^ -308` are reached in several steps. -/
def scale : Nat → Binary → Int → Numeral
  | 0, x, _ => .float x
  | steps + 1, x, e =>
    if e.natAbs ≤ 308 then
      if 0 ≤ e then
        match Binary.double.times x (power e.natAbs) with
        | .infinite _ => .huge
        | y => .float y
      else .float (Binary.double.over x (power e.natAbs))
    else if x = .finite false 0 Binary.double.least then .float x
    else if 0 ≤ e then .huge
    else scale steps (Binary.double.over x (power 308)) (e + 308)

def withSign (negative : Bool) : Numeral → Numeral
  | .float x => .float (if negative then x.negate else x)
  | n => n

/-- A significand times a power of ten; five steps suffice for every significand. -/
def fromParts (negative : Bool) (significand : Nat) (e : Int) : Numeral :=
  withSign negative (scale 5 (Binary.double.ofInt significand) e)

/-- The number with its exponent, which adds to the power `e`. Exponents out of range stand for zero
or for a number beyond all doubles. -/
def raised (negative : Bool) (significand : Nat) (e : Int) : Option (Bool × List Char) → Numeral
  | none => fromParts negative significand e
  | some (down, ds) =>
    let n := Text.readDigits 0 ds
    if largestExponent < n then
      if significand = 0 ∨ down then
        withSign negative (.float (.finite false 0 Binary.double.least))
      else .huge
    else fromParts negative significand (if down then e - n else e + n)

/-- The value of a number. Without fraction and exponent it is an integer, if it is one of 64 bits;
the negative zero is none. -/
def Parts.value (p : Parts) : Numeral :=
  let (significand, dropped) := absorb 0 p.whole
  match p.fraction, p.exponent with
  | none, none =>
    if dropped.isEmpty then
      if !p.negative then .integer significand
      else if significand = 0 ∨ Word.size 63 < significand then
        .float (Binary.double.ofInt significand).negate
      else .integer (-significand)
    else fromParts p.negative significand dropped.length
  | fraction, exponent =>
    let ds := fraction.getD []
    let (significand, left) := absorb significand ds
    let taken : Int := Int.ofNat ds.length - left.length
    raised p.negative significand (dropped.length - taken) exponent

def readDigitRun (s : List Char) : Option (List Char × List Char) :=
  match s.takeWhile Text.isDigit with
  | [] => none
  | ds => some (ds, s.dropWhile Text.isDigit)

def readFraction : List Char → Option (Option (List Char) × List Char)
  | '.' :: r => (readDigitRun r).map fun (ds, r) => (some ds, r)
  | r => some (none, r)

def readExponentDigits (down : Bool) (s : List Char) :
    Option (Option (Bool × List Char) × List Char) :=
  (readDigitRun s).map fun (ds, r) => (some (down, ds), r)

def readExponent : List Char → Option (Option (Bool × List Char) × List Char)
  | 'e' :: '+' :: r | 'E' :: '+' :: r => readExponentDigits false r
  | 'e' :: '-' :: r | 'E' :: '-' :: r => readExponentDigits true r
  | 'e' :: r | 'E' :: r => readExponentDigits false r
  | r => some (none, r)

/-- A number without its sign. A zero at the start is the only digit before the point. -/
def readUnsigned (negative : Bool) (s : List Char) : Option (Parts × List Char) := do
  let (whole, r) ← readDigitRun s
  if whole.head? = some '0' ∧ whole.length ≠ 1 then none
  let (fraction, r) ← readFraction r
  let (exponent, r) ← readExponent r
  return (⟨negative, whole, fraction, exponent⟩, r)

def readNumber : List Char → Option (Parts × List Char)
  | '-' :: r => readUnsigned true r
  | r => readUnsigned false r

end MutantSieve.Json
