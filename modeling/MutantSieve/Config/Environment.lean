import MutantSieve.Config.Basic
import MutantSieve.Text.Blank
import MutantSieve.Toml.Reader

/-!
# Configuration from environment variables

A variable whose name starts with `RETFILTER_`, in any case, sets the entry that the rest of its
name leads to; two underscores divide the names of a section and an entry in it. Its value is read
as a truth value, a number, a list between brackets, a table between braces or a quoted text where
it has one of these forms to its end, and else taken as it is.

Of the characters before the first escape in a quoted text only so many bytes are kept as there are
characters, which is all of them where each takes one byte. Where these bytes end inside a
character, the value cannot be read at all.
-/

set_option autoImplicit false

namespace MutantSieve.Config

def isSpace (c : Char) : Bool :=
  decide (c = ' ') || decide (c = '\t') || decide (c = '\n') || decide (c = '\r') ||
    decide (c = '\x0c')

def skipSpaces (s : List Char) : List Char := s.dropWhile isSpace

def isSeparator (c : Char) : Bool :=
  decide (c = ',') || decide (c = '[') || decide (c = ']') || decide (c = '\x7b') ||
    decide (c = '\x7d')

def integer? (s : List Char) : Option Int :=
  let (negative, ds) := Toml.signOf s
  if ds.isEmpty || !ds.all Text.isDigit then none
  else
    let n := Int.ofNat (Text.readDigits 0 ds)
    if negative then if Word.signed 64 (-n) then some (-n) else none
    else if Word.unsigned 64 n then some n else none

def isDecimal (s : List Char) : Bool :=
  let (_, r) := Toml.signOf s
  let mantissa := r.takeWhile fun c => !Toml.isExponentMark c
  let mark := r.dropWhile fun c => !Toml.isExponentMark c
  let whole := mantissa.takeWhile (· ≠ '.')
  let fraction := (mantissa.dropWhile (· ≠ '.')).drop 1
  let exponent := (Toml.signOf (mark.drop 1)).2
  mantissa.contains '.' && (whole ++ fraction).all Text.isDigit &&
    !(whole ++ fraction).isEmpty &&
    (mark.isEmpty || (!exponent.isEmpty && exponent.all Text.isDigit))

/-- A word that is neither quoted nor a list nor a table. No entry asks for a number with a point,
so its value is of no interest. -/
def word (s : List Char) : Data :=
  if isDecimal s then .number (.float .undefined)
  else
    match integer? s with
    | some i => .number (.integer i)
    | none => .text (some (String.ofList s))

def isKeyChar (c : Char) : Bool := c.isAlphanum || decide (c = '_') || decide (c = '-')

inductive Misreading where
  /-- It does not have the form. -/
  | malformed
  /-- The part to be kept of a quoted text ends inside a character. -/
  | torn
  deriving DecidableEq, Repr

abbrev Reading := Except Misreading

def quotedPart : List Char → Option (List Char × List Char)
  | [] => none
  | '"' :: r => some ([], r)
  | '\\' :: c :: r => (quotedPart r).map fun (cs, r) => ('\\' :: c :: cs, r)
  | c :: r => (quotedPart r).map fun (cs, r) => (c :: cs, r)

/-- The characters at the start of a text that take just so many bytes. -/
def keptBytes : Nat → List Char → Option (List Char)
  | 0, _ => some []
  | _, [] => none
  | n, c :: r =>
    if c.utf8Size ≤ n then (keptBytes (n - c.utf8Size) r).map (c :: ·) else none

def unescaped (s : List Char) : Reading (List Char) :=
  match Toml.basic .v10 (s ++ ['"']) with
  | some (cs, _) => .ok cs
  | none => .error .malformed

def quotedText (s : List Char) : Reading (List Char) :=
  let plain := s.takeWhile (· ≠ '\\')
  if plain.length = s.length then unescaped s
  else if !plain.all Toml.isVisible then .error .malformed
  else
    match keptBytes plain.length plain with
    | none => .error .torn
    | some kept => (unescaped (s.drop plain.length)).map (kept ++ ·)

def readQuoted (s : List Char) : Reading (String × List Char) :=
  match quotedPart s with
  | none => .error .malformed
  | some (part, r) => (quotedText part).map fun cs => (String.ofList cs, r)

def readKey (s : List Char) : Reading (String × List Char) :=
  match s with
  | '"' :: r => readQuoted r
  | s =>
    match s.takeWhile isKeyChar with
    | [] => .error .malformed
    | cs => .ok (String.ofList cs, s.dropWhile isKeyChar)

def readPlain (s : List Char) : Reading (Data × List Char) :=
  match s with
  | 't' :: 'r' :: 'u' :: 'e' :: r => .ok (.bool true, r)
  | 'f' :: 'a' :: 'l' :: 's' :: 'e' :: r => .ok (.bool false, r)
  | '"' :: r => (readQuoted r).map fun (text, r) => (.text (some text), r)
  | '\x27' :: c :: '\x27' :: r => .ok (.text (some (String.singleton c)), r)
  | '\x27' :: _ => .error .malformed
  | s =>
    .ok (word (Text.trim (s.takeWhile fun c => !isSeparator c)),
      s.dropWhile fun c => !isSeparator c)

mutual

def readValue (fuel : Nat) (s : List Char) : Reading (Data × List Char) :=
  match fuel with
  | 0 => .error .malformed
  | fuel + 1 => do
    let (d, r) ←
      match skipSpaces s with
      | '[' :: r => readItems fuel r
      | '\x7b' :: r => (readEntries fuel [] r).map fun (ms, r) => (Data.record ms true, r)
      | s => readPlain s
    return (d, skipSpaces r)

/-- The items of a list. Only a bracket directly behind the opening one or a comma ends the list
without an item before it. -/
def readItems (fuel : Nat) (s : List Char) : Reading (Data × List Char) :=
  match fuel with
  | 0 => .error .malformed
  | fuel + 1 =>
    match s with
    | ']' :: r => .ok (.list [] true, r)
    | s => do
      let (item, r) ← readValue fuel s
      match r with
      | ']' :: r => return (.list [item] true, r)
      | ',' :: r => do
        let (rest, r) ← readItems fuel r
        match rest with
        | .list items _ => return (.list (item :: items) true, r)
        | _ => .error .malformed
      | _ => .error .malformed

/-- The entries of a table; of a repeated key the last value counts. -/
def readEntries (fuel : Nat) (ms : Members) (s : List Char) : Reading (Members × List Char) :=
  match fuel with
  | 0 => .error .malformed
  | fuel + 1 =>
    match s with
    | '\x7d' :: r => .ok (ms, r)
    | s => do
      let (key, r) ← readKey (skipSpaces s)
      match skipSpaces r with
      | '=' :: r => do
        let (d, r) ← readValue fuel (skipSpaces r)
        let ms := putMember (some key) d ms
        match r with
        | '\x7d' :: r => return (ms, r)
        | ',' :: r => readEntries fuel ms r
        | _ => .error .malformed
      | _ => .error .malformed

end

def variableValue (s : String) : Option Data :=
  match readValue (2 * s.length + 2) s.toList with
  | .ok (d, []) => some d
  | .ok _ | .error .malformed => some (.text (some s))
  | .error .torn => none

def dropStart (s : List Char) : Option (List Char) :=
  let start := "retfilter_".toList
  if (s.take start.length).map Char.toLower == start then some (s.drop start.length) else none

def dotted : List Char → List Char
  | '_' :: '_' :: r => '.' :: dotted r
  | c :: r => c :: dotted r
  | [] => []

def splitPoints : List Char → List (List Char)
  | [] => [[]]
  | c :: r =>
    if c = '.' then [] :: splitPoints r
    else
      match splitPoints r with
      | [] => [[c]]
      | p :: ps => (c :: p) :: ps

def variableKey (name : String) : Option (List String) := do
  let rest ← dropStart (Text.trim name.toList)
  let parts := splitPoints ((Text.trim (dotted rest)).map Char.toLower)
  if parts.any List.isEmpty then none else some (parts.map String.ofList)

def nest (d : Data) : List String → Data
  | [] => d
  | name :: rest => .record [(some name, nest d rest)] true

def variableLayer (key : List String) (value : String) : Option Data :=
  (variableValue value).map fun d => nest d key

def environmentLayer (environment : List (String × String)) : Option Data :=
  let entries := environment.filterMap fun v => (variableKey v.1).map fun key => (key, v.2)
  (entries.mapM fun e => variableLayer e.1 e.2).map fun layers =>
    layers.foldl overlay (.record [] true)

end MutantSieve.Config
