import MutantSieve.Json.Numeral

/-!
# Reading JSON text

Text is read by recursive descent. A reader returns what it found and the text that follows, or no
text where it met a fault. Lists and records may be nested to a depth of 127.
-/

set_option autoImplicit false

namespace MutantSieve.Json

def isBlank (c : Char) : Bool :=
  decide (c = ' ') || decide (c = '\n') || decide (c = '\t') || decide (c = '\r')

def skipBlanks (s : List Char) : List Char := s.dropWhile isBlank

def hexValue? (c : Char) : Option Nat :=
  if Text.isDigit c then some (c.toNat - 48)
  else if 97 ≤ c.toNat ∧ c.toNat ≤ 102 then some (c.toNat - 87)
  else if 65 ≤ c.toNat ∧ c.toNat ≤ 70 then some (c.toNat - 55)
  else none

def hexCode? (cs : List Char) : Option Nat :=
  cs.foldlM (fun n c => (hexValue? c).map fun d => 16 * n + d) 0

def shortEscape? (c : Char) : Option Char :=
  if c = '"' ∨ c = '\\' ∨ c = '/' then some c
  else if c = 'b' then some '\x08'
  else if c = 'f' then some '\x0c'
  else if c = 'n' then some '\n'
  else if c = 'r' then some '\r'
  else if c = 't' then some '\t'
  else none

inductive Piece where
  | char (c : Char)
  | unit (n : Nat)
  deriving DecidableEq, Repr

def readPieces : List Char → Option (List Piece × List Char)
  | [] => none
  | '"' :: r => some ([], r)
  | '\\' :: 'u' :: a :: b :: c :: d :: r =>
    match hexCode? [a, b, c, d] with
    | some n => (readPieces r).map fun (ps, r) => (.unit n :: ps, r)
    | none => none
  | '\\' :: e :: r =>
    match shortEscape? e with
    | some c => (readPieces r).map fun (ps, r) => (.char c :: ps, r)
    | none => none
  | c :: r =>
    if c.toNat < 32 ∨ c = '\\' then none
    else (readPieces r).map fun (ps, r) => (.char c :: ps, r)

def isHigh (n : Nat) : Bool := decide (0xD800 ≤ n) && decide (n ≤ 0xDBFF)

def isLow (n : Nat) : Bool := decide (0xDC00 ≤ n) && decide (n ≤ 0xDFFF)

/-- The characters of the pieces. Two code units that are halves of a pair make one character; a
half alone makes none. -/
def joinPieces : List Piece → Option (List Char)
  | [] => some []
  | .char c :: rest => (joinPieces rest).map (c :: ·)
  | .unit n :: .unit k :: rest =>
    if isHigh n then
      if isLow k then
        (joinPieces rest).map (Char.ofNat (0x10000 + (n - 0xD800) * 0x400 + (k - 0xDC00)) :: ·)
      else none
    else if isLow n then none
    else (joinPieces (.unit k :: rest)).map (Char.ofNat n :: ·)
  | .unit n :: rest =>
    if isHigh n || isLow n then none else (joinPieces rest).map (Char.ofNat n :: ·)

def readString (s : List Char) : Option (Option String × List Char) :=
  (readPieces s).map fun (ps, r) => ((joinPieces ps).map String.ofList, r)

/-- A value that reaches the allowed depth of nesting can only be skipped. -/
def nested (depth : Nat) (d : Data) : Data := if 128 ≤ depth then .deep d else d

def readScalar (s : List Char) : Data × Option (List Char) :=
  match s with
  | 'n' :: 'u' :: 'l' :: 'l' :: r => (.null, some r)
  | 't' :: 'r' :: 'u' :: 'e' :: r => (.bool true, some r)
  | 'f' :: 'a' :: 'l' :: 's' :: 'e' :: r => (.bool false, some r)
  | '"' :: r =>
    match readString r with
    | some (content, r) => (.text content, some r)
    | none => (.cut, none)
  | s =>
    match readNumber s with
    | some (parts, r) => (.number parts.value, some r)
    | none => (.cut, none)

mutual

def readValue (fuel depth : Nat) (s : List Char) : Data × Option (List Char) :=
  match fuel with
  | 0 => (.cut, none)
  | fuel + 1 =>
    match skipBlanks s with
    | '[' :: r =>
      match skipBlanks r with
      | ']' :: r => (nested (depth + 1) (.list [] true), some r)
      | r =>
        let (items, rest) := readItems fuel (depth + 1) r
        (nested (depth + 1) (.list items rest.isSome), rest)
    | '{' :: r =>
      match skipBlanks r with
      | '}' :: r => (nested (depth + 1) (.record [] true), some r)
      | r =>
        let (members, rest) := readMembers fuel (depth + 1) r
        (nested (depth + 1) (.record members rest.isSome), rest)
    | s => readScalar s

def readItems (fuel depth : Nat) (s : List Char) : List Data × Option (List Char) :=
  match fuel with
  | 0 => ([], none)
  | fuel + 1 =>
    match readValue fuel depth s with
    | (item, none) => ([item], none)
    | (item, some r) =>
      match skipBlanks r with
      | ']' :: r => ([item], some r)
      | ',' :: r =>
        let (items, rest) := readItems fuel depth r
        (item :: items, rest)
      | _ => ([item], none)

def readMembers (fuel depth : Nat) (s : List Char) :
    List (Option String × Data) × Option (List Char) :=
  match fuel with
  | 0 => ([], none)
  | fuel + 1 =>
    match skipBlanks s with
    | '"' :: r =>
      match readString r with
      | none => ([], none)
      | some (name, r) =>
        match skipBlanks r with
        | ':' :: r =>
          match readValue fuel depth r with
          | (item, none) => ([(name, item)], none)
          | (item, some r) =>
            match skipBlanks r with
            | '}' :: r => ([(name, item)], some r)
            | ',' :: r =>
              let (members, rest) := readMembers fuel depth r
              ((name, item) :: members, rest)
            | _ => ([(name, item)], none)
        | _ => ([(name, .cut)], none)
    | _ => ([], none)

end

/-- The value at the start of a text, and what follows it. Every second step of the descent
consumes a character. -/
def read (s : List Char) : Data × Option (List Char) := readValue (2 * s.length + 2) 0 s

def ends : Option (List Char) → Bool
  | some r => (skipBlanks r).isEmpty
  | none => false

end MutantSieve.Json
