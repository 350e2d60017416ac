import MutantSieve.Binary.Shortest
import MutantSieve.Toml.Text

/-!
# Numbers, dates and times in TOML

A scalar without quotation marks is read as a whole and then classified: an integer in one of four
bases, a floating point number, or a date, a time or both. Single underscores may divide digits.
-/

set_option autoImplicit false

namespace MutantSieve.Toml

open Text (isDigit digitValue readDigits)

/-- A text without its underscores, each of which has to stand between two digits. `behind` tells
whether an underscore at the start would stand behind a digit. -/
def joined (digit : Char → Bool) (behind : Bool) : List Char → Option (List Char)
  | [] => some []
  | '_' :: c :: r => if behind && digit c then (joined digit true r).map (c :: ·) else none
  | ['_'] => none
  | c :: r => (joined digit (digit c) r).map (c :: ·)

def inBase (base : Nat) (c : Char) : Bool := (Json.hexValue? c).any fun d => decide (d < base)

def based (base : Nat) (s : List Char) : Option Int :=
  match joined (inBase base) false s with
  | none | some [] => none
  | some ds =>
    if ds.all (inBase base) then
      some (Int.ofNat (ds.foldl (fun n c => base * n + (Json.hexValue? c).getD 0) 0))
    else none

def signOf : List Char → Bool × List Char
  | '-' :: r => (true, r)
  | '+' :: r => (false, r)
  | r => (false, r)

def signed (negative : Bool) (n : Nat) : Int := if negative then -Int.ofNat n else Int.ofNat n

def zeroLeads (whole : List Char) : Bool := whole.head? == some '0' && decide (1 < whole.length)

def decimal? (s : List Char) : Option Int :=
  let (negative, r) := signOf s
  if zeroLeads r then none
  else
    match joined isDigit false r with
    | none | some [] => none
    | some ds => if ds.all isDigit then some (signed negative (readDigits 0 ds)) else none

def baseOf : List Char → Option (Nat × List Char)
  | '0' :: 'x' :: r => some (16, r)
  | '0' :: 'o' :: r => some (8, r)
  | '0' :: 'b' :: r => some (2, r)
  | _ => none

def integer? (s : List Char) : Option Int :=
  match baseOf s with
  | some (base, r) => based base r
  | none => decimal? s

def isExponentMark (c : Char) : Bool := decide (c = 'e') || decide (c = 'E')

/-- Whether a text that is no integer is put off: version 1.1 takes it for one until its value is
needed. Its digits may be missing behind the mark of a base, and behind an underscore characters
may stand that are no digits. -/
def isDeferred (v : Version) (s : List Char) : Bool :=
  let r := (signOf s).2
  decide (v = .v11) &&
    match baseOf s with
    | some (_, digits) => digits.isEmpty
    | none =>
      (r.dropWhile isDigit).head? == some '_' && decide (r.head? ≠ some '0') &&
        !(r.any fun c => isExponentMark c || decide (c = '.')) &&
        (joined (inBase 16) false r).isSome

/-- The double next to a significand of the given digits times a power of ten. A power far beyond
the range of doubles is not computed. -/
def nearest (negative : Bool) (ds : List Char) (e : Int) : Binary :=
  let n := readDigits 0 ds
  let size : Int := e + Int.ofNat ds.length
  if n = 0 then .finite negative 0 Binary.double.least
  else if 400 < e then .infinite negative
  else if size < -400 then .finite negative 0 Binary.double.least
  else Binary.double.round negative (n * Decimal.up e) (Decimal.down e)

def exponent? (s : List Char) : Option Int :=
  let (negative, ds) := signOf s
  if ds.isEmpty || !ds.all isDigit then none else some (signed negative (readDigits 0 ds))

def fractional? (s : List Char) : Option Binary := do
  let (negative, r) := signOf s
  let text ← joined isDigit false r
  let mantissa := text.takeWhile fun c => !isExponentMark c
  let mark := text.dropWhile fun c => !isExponentMark c
  let whole := mantissa.takeWhile (· ≠ '.')
  let fraction := mantissa.dropWhile (· ≠ '.')
  let digits := whole ++ fraction.drop 1
  if mark.isEmpty && fraction.isEmpty || whole.isEmpty || fraction.length = 1 ||
      !digits.all isDigit || zeroLeads whole then none
  let e ← if mark.isEmpty then some 0 else exponent? (mark.drop 1)
  return nearest negative digits (e - (fraction.drop 1).length)

def special? (s : List Char) : Option Binary :=
  let (negative, r) := signOf s
  if r = ['i', 'n', 'f'] then some (.infinite negative)
  else if r = ['n', 'a', 'n'] then some .undefined
  else none

def pair? (least most : Nat) : List Char → Option (Nat × List Char)
  | a :: b :: r =>
    let n := 10 * digitValue a + digitValue b
    if isDigit a && isDigit b && decide (least ≤ n) && decide (n ≤ most) then some (n, r) else none
  | _ => none

def isLeap (year : Nat) : Bool :=
  decide (year % 4 = 0) && (decide (year % 100 ≠ 0) || decide (year % 400 = 0))

def daysIn (year month : Nat) : Nat :=
  if month = 2 then if isLeap year then 29 else 28
  else if month = 4 ∨ month = 6 ∨ month = 9 ∨ month = 11 then 30
  else 31

def afterDate (s : List Char) : Option (List Char) := do
  let (century, r) ← pair? 0 99 s
  let (decade, r) ← pair? 0 99 r
  let r ← if r.head? = some '-' then some (r.drop 1) else none
  let (month, r) ← pair? 1 12 r
  let r ← if r.head? = some '-' then some (r.drop 1) else none
  let (_, r) ← pair? 1 (daysIn (100 * century + decade) month) r
  return r

def afterFraction : List Char → Option (List Char)
  | '.' :: c :: r => if isDigit c then some (r.dropWhile isDigit) else none
  | '.' :: [] => none
  | r => some r

/-- What follows a time. The seconds may be missing from version 1.1 on. -/
def afterTime (v : Version) (s : List Char) : Option (List Char) := do
  let (_, r) ← pair? 0 23 s
  let r ← if r.head? = some ':' then some (r.drop 1) else none
  let (_, r) ← pair? 0 59 r
  match r with
  | ':' :: r => do
    let (_, r) ← pair? 0 60 r
    afterFraction r
  | r => if v = .v11 then some r else none

def isOffset : List Char → Bool
  | [] | ['Z'] | ['z'] => true
  | c :: r =>
    (decide (c = '+') || decide (c = '-')) &&
      match pair? 0 23 r with
      | some (_, ':' :: r) =>
        match pair? 0 59 r with
        | some (_, []) => true
        | _ => false
      | _ => false

def isStamp (v : Version) (s : List Char) : Bool :=
  match afterDate s with
  | some [] => true
  | some (c :: r) =>
    (decide (c = 'T') || decide (c = 't') || decide (c = ' ')) && (afterTime v r).any isOffset
  | none => (afterTime v s).any List.isEmpty

/-- Whether an integer has its place: in 64 bits with a sign in version 1.0, else in 128 bits. -/
def hasPlace (v : Version) (i : Int) : Bool :=
  match v with
  | .v10 => Word.signed 64 i
  | .v11 => Word.signed 128 i || Word.unsigned 128 i

def stamp (s : List Char) : Data :=
  .record [(some "date and time", .text (some (String.ofList s)))] true

/-- Whether a double has its place: version 1.0 refuses only what is too great. -/
def isNear (v : Version) : Binary → Bool
  | .infinite negative => decide (v = .v10) && negative
  | _ => true

/-- The value of a scalar. A number without a place is a value that cannot be taken in, and so is
one that is put off. -/
def scalar (v : Version) (s : List Char) : Option Data :=
  if s = ['t', 'r', 'u', 'e'] then some (.bool true)
  else if s = ['f', 'a', 'l', 's', 'e'] then some (.bool false)
  else
    match integer? s with
    | some i => some (if hasPlace v i then .number (.integer i) else .cut)
    | none =>
      match special? s with
      | some x => some (.number (.float x))
      | none =>
        match fractional? s with
        | some x => some (if isNear v x then .number (.float x) else .cut)
        | none =>
          if isDeferred v s then some .cut
          else if isStamp v s then some (stamp s)
          else none

/-- A character that may stand in a scalar. Version 1.1 takes in all up to the next mark, blank or
line end. -/
def isScalarChar (v : Version) (c : Char) : Bool :=
  match v with
  | .v10 => c.isAlphanum || ['+', '-', '_', '.', ':'].contains c
  | .v11 => !(['=', ',', '[', ']', '\x7b', '\x7d', '#', ' ', '\t', '\r', '\n'].contains c)

/-- The characters of a scalar and what follows it. A blank may stand between a date and a time. -/
def scalarText (v : Version) (s : List Char) : List Char × List Char :=
  let valid := isScalarChar v
  let token := s.takeWhile valid
  match s.dropWhile valid with
  | ' ' :: c :: r =>
    if isDigit c && (afterDate token == some []) then
      (token ++ ' ' :: (c :: r).takeWhile valid, (c :: r).dropWhile valid)
    else (token, ' ' :: c :: r)
  | r => (token, r)

def readScalar (v : Version) (s : List Char) : Option (Data × List Char) :=
  let (token, r) := scalarText v s
  (scalar v token).map fun d => (d, r)

end MutantSieve.Toml
