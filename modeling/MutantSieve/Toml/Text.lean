import MutantSieve.Json.Reader

/-!
# Strings in TOML

Strings are written between quotation marks or apostrophes, on one line or, between three of them,
on several lines. Between apostrophes there are no escapes. Version 1.1 knows two escapes more than
version 1.0, and keeps the carriage return of a line end.
-/

set_option autoImplicit false

namespace MutantSieve.Toml

inductive Version where
  | v10
  | v11
  deriving DecidableEq, Repr

def isBlank (c : Char) : Bool := decide (c = ' ') || decide (c = '\t')

def skipBlanks (s : List Char) : List Char := s.dropWhile isBlank

def isVisible (c : Char) : Bool :=
  decide (c = '\t') || (decide (32 ≤ c.toNat) && decide (c.toNat ≠ 127))

def charOf? (n : Nat) : Option Char :=
  if n < 0xD800 ∨ (0xDFFF < n ∧ n < 0x110000) then some (Char.ofNat n) else none

def hexChar? (cs : List Char) : Option Char := (Json.hexCode? cs).bind charOf?

def shortEscape? (v : Version) (c : Char) : Option Char :=
  if c = '"' ∨ c = '\\' then some c
  else if c = 'b' then some '\x08'
  else if c = 'f' then some '\x0c'
  else if c = 'n' then some '\n'
  else if c = 'r' then some '\r'
  else if c = 't' then some '\t'
  else if c = 'e' ∧ v = .v11 then some '\x1b'
  else none

abbrev TextReading := Option (List Char × List Char)

def TextReading.push (c : Option Char) (t : TextReading) : TextReading := do
  let c ← c
  let (cs, r) ← t
  return (c :: cs, r)

def basic (v : Version) : List Char → TextReading
  | [] => none
  | '"' :: r => some ([], r)
  | '\\' :: 'u' :: a :: b :: c :: d :: r =>
    TextReading.push (hexChar? [a, b, c, d]) (basic v r)
  | '\\' :: 'U' :: a :: b :: c :: d :: e :: f :: g :: h :: r =>
    TextReading.push (hexChar? [a, b, c, d, e, f, g, h]) (basic v r)
  | '\\' :: 'x' :: a :: b :: r =>
    if v = .v11 then TextReading.push (hexChar? [a, b]) (basic v r) else none
  | '\\' :: e :: r => TextReading.push (shortEscape? v e) (basic v r)
  | c :: r => if isVisible c then TextReading.push (some c) (basic v r) else none

def literal : List Char → TextReading
  | [] => none
  | '\x27' :: r => some ([], r)
  | c :: r => if isVisible c then TextReading.push (some c) (literal r) else none

def TextReading.lead (front : List Char) (t : TextReading) : TextReading :=
  t.map fun (cs, r) => (front ++ cs, r)

def lineBreak (v : Version) : List Char :=
  match v with
  | .v10 => ['\n']
  | .v11 => ['\r', '\n']

def atLineEnd (s : List Char) : Bool :=
  match skipBlanks s with
  | '\n' :: _ => true
  | '\r' :: '\n' :: _ => true
  | _ => false

/-- The text up to three quotation marks, to which up to two more may be joined that belong to the
text. After a backslash at the end of a line, blanks and line ends are left out (`joining`). -/
def basicLines (v : Version) (joining : Bool) : List Char → TextReading
  | [] => none
  | '"' :: '"' :: '"' :: '"' :: '"' :: r => some (['"', '"'], r)
  | '"' :: '"' :: '"' :: '"' :: r => some (['"'], r)
  | '"' :: '"' :: '"' :: r => some ([], r)
  | '\r' :: '\n' :: r =>
    if joining then basicLines v true r
    else TextReading.lead (lineBreak v) (basicLines v false r)
  | '\\' :: 'u' :: a :: b :: c :: d :: r =>
    TextReading.push (hexChar? [a, b, c, d]) (basicLines v false r)
  | '\\' :: 'U' :: a :: b :: c :: d :: e :: f :: g :: h :: r =>
    TextReading.push (hexChar? [a, b, c, d, e, f, g, h]) (basicLines v false r)
  | '\\' :: 'x' :: a :: b :: r =>
    if v = .v11 then TextReading.push (hexChar? [a, b]) (basicLines v false r) else none
  | '\\' :: e :: r =>
    if atLineEnd (e :: r) then basicLines v true (e :: r)
    else TextReading.push (shortEscape? v e) (basicLines v false r)
  | c :: r =>
    if joining && (isBlank c || decide (c = '\n')) then basicLines v true r
    else if isVisible c || decide (c = '\n') then
      TextReading.push (some c) (basicLines v false r)
    else none

def literalLines (v : Version) : List Char → TextReading
  | [] => none
  | '\x27' :: '\x27' :: '\x27' :: '\x27' :: '\x27' :: r => some (['\x27', '\x27'], r)
  | '\x27' :: '\x27' :: '\x27' :: '\x27' :: r => some (['\x27'], r)
  | '\x27' :: '\x27' :: '\x27' :: r => some ([], r)
  | '\r' :: '\n' :: r => TextReading.lead (lineBreak v) (literalLines v r)
  | c :: r =>
    if isVisible c || decide (c = '\n') then TextReading.push (some c) (literalLines v r) else none

def dropLineEnd : List Char → List Char
  | '\n' :: r => r
  | '\r' :: '\n' :: r => r
  | r => r

def readString (v : Version) : List Char → TextReading
  | '"' :: '"' :: '"' :: r => basicLines v false (dropLineEnd r)
  | '\x27' :: '\x27' :: '\x27' :: r => literalLines v (dropLineEnd r)
  | '"' :: r => basic v r
  | '\x27' :: r => literal r
  | _ => none

end MutantSieve.Toml
