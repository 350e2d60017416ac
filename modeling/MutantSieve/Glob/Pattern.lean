import MutantSieve.Glob.Match

/-!
# Glob patterns

The text of a glob: `?` and `*` stand for characters of a path, `**` between slashes for folders,
`[…]` for one of several characters and `{…}` for one of several patterns. A backslash takes the
character behind it literally.
-/

set_option autoImplicit false

namespace MutantSieve.Glob

inductive Token where
  | char (c : Char)
  | one
  | many
  /-- Folders at the start of a pattern. -/
  | leading
  /-- What is in a folder, at the end of a pattern. -/
  | trailing
  /-- Folders between two slashes. -/
  | between
  | set (negated : Bool) (ranges : List (Char × Char))
  | either (choices : List (List Token))
  deriving Inhabited

/-- A list of choices under construction: the finished ones and the tokens of the open one, both
backwards. -/
structure Level where
  done : List (List Token) := []
  current : List Token := []

structure Parse where
  level : Level := {}
  outer : List Level := []
  /-- The last character that was consumed. -/
  last : Option Char := none
  /-- Whether brackets are taken literally from here on. -/
  plainBrackets : Bool := false

namespace Parse

def push (p : Parse) (t : Token) : Parse :=
  { p with level := { p.level with current := t :: p.level.current } }

def after (p : Parse) (c : Char) : Parse := { p with last := some c }

def inChoice (p : Parse) : Bool := !p.outer.isEmpty

def openChoice (p : Parse) : Parse := { p with level := {}, outer := p.level :: p.outer }

def nextChoice (p : Parse) : Parse :=
  { p with level := { done := p.level.current.reverse :: p.level.done, current := [] } }

def closeChoice (p : Parse) : Option Parse :=
  match p.outer with
  | [] => none
  | level :: outer =>
    let choices := (p.level.current.reverse :: p.level.done).reverse
    some { p with
      level := { level with current := .either choices :: level.current }
      outer := outer }

def manyTwice (p : Parse) : Parse := (p.push .many).push .many

def replaceLast (p : Parse) (t : Token) : Parse :=
  match p.level.current with
  | [] => p.push t
  | .leading :: _ => p
  | .trailing :: _ => p
  | _ :: rest => { p with level := { p.level with current := t :: rest } }

/-- Two stars, from behind them. They stand for folders where slashes, or the ends of a choice,
enclose them, else for two single stars. -/
def doubleStar (p : Parse) (s : List Char) : Parse × List Char :=
  if p.level.current.isEmpty then
    match s with
    | [] => (p.push .leading, [])
    | '/' :: r => ((p.push .leading).after '/', r)
    | s => (p.manyTwice.after '*', s)
  else
    let enclosed :=
      p.last == some '/' || (p.inChoice && (p.last == some ',' || p.last == some '\x7b'))
    if !enclosed then (p.manyTwice.after '*', s)
    else
      match s with
      | [] => (p.replaceLast .trailing, [])
      | '/' :: r => ((p.replaceLast .between).after '/', r)
      | c :: r =>
        if p.inChoice && (decide (c = ',') || decide (c = '\x7d')) then
          ((p.replaceLast .trailing).after '*', c :: r)
        else (p.manyTwice.after '*', c :: r)

end Parse

inductive SetReading where
  | found (ranges : List (Char × Char)) (rest : List Char)
  | unclosed
  | badRange

/-- The characters of a set up to the closing bracket. `ranges` holds those before, backwards;
`first` tells that nothing was read yet, and `joining` that a dash waits for the end of a range. -/
def readSet (ranges : List (Char × Char)) (first joining : Bool) : List Char → SetReading
  | [] => .unclosed
  | c :: r =>
    if c = ']' ∧ first = false then
      .found (if joining then ('-', '-') :: ranges else ranges).reverse r
    else if c = '-' ∧ first = false ∧ joining = false then readSet ranges false true r
    else if joining then
      match ranges with
      | [] => .badRange
      | (a, _) :: rest => if c < a then .badRange else readSet ((a, c) :: rest) false false r
    else readSet ((c, c) :: ranges) false false r

/-- How a kind of glob is read: whether wildcards stop at slashes, and whether a bracket that is
never closed is taken literally. -/
structure Style where
  stopAtSlash : Bool
  plainUnclosed : Bool
  deriving DecidableEq, Repr

def Parse.set (p : Parse) (style : Style) (s : List Char) : Option (Parse × List Char) :=
  let negated := s.head? == some '!' || s.head? == some '^'
  match readSet [] true false (if negated then s.drop 1 else s) with
  | .found ranges r => some ((p.push (.set negated ranges)).after ']', r)
  | .badRange => none
  | .unclosed =>
    if style.plainUnclosed then
      some ({ (p.push (.char '[')).after '[' with plainBrackets := true }, s)
    else none

def Parse.step (p : Parse) (style : Style) (c : Char) (r : List Char) :
    Option (Parse × List Char) :=
  if c = '?' then some ((p.push .one).after c, r)
  else if c = '*' then
    match r with
    | '*' :: r => some (p.doubleStar r)
    | r => some ((p.push .many).after c, r)
  else if c = '[' ∧ p.plainBrackets = false then p.set style r
  else if c = '\x7b' then some (p.openChoice.after c, r)
  else if c = '\x7d' then p.closeChoice.map fun p => (p.after c, r)
  else if c = ',' ∧ p.inChoice = true then some (p.nextChoice.after c, r)
  else if c = '\\' then
    match r with
    | [] => none
    | d :: r => some ((p.push (.char d)).after d, r)
  else some ((p.push (.char c)).after c, r)

def Parse.run (style : Style) : Nat → Parse → List Char → Option Parse
  | 0, _, _ => none
  | _ + 1, p, [] => some p
  | fuel + 1, p, c :: r =>
    match p.step style c r with
    | some (p, r) => Parse.run style fuel p r
    | none => none

def tokens? (style : Style) (pattern : String) : Option (List Token) := do
  let s := pattern.toList
  let p ← Parse.run style (s.length + 1) {} s
  if p.inChoice then none else some p.level.current.reverse

def charBytes (c : Char) : List UInt8 := (String.singleton c).toUTF8.toList

/-- The ranges of bytes for a range of characters. Of a character of several bytes each byte counts
by itself; the range leads from the last byte of the first character to the first one of the
last. -/
def byteRanges (r : Char × Char) : List (UInt8 × UInt8) :=
  let first := charBytes r.1
  let last := charBytes r.2
  if r.1 = r.2 then first.map fun b => (b, b)
  else
    first.dropLast.map (fun b => (b, b)) ++
      [(first.getLast?.getD 0, last.head?.getD 0)] ++ (last.drop 1).map (fun b => (b, b))

mutual

def Token.parts (stop : Bool) : Token → List Part
  | .char c => (charBytes c).map .byte
  | .one => [.one stop]
  | .many => [.many stop]
  | .leading => [.either [[], [.byte slash], [.many false, .byte slash]]]
  | .trailing => [.byte slash, .many false]
  | .between => [.either [[.byte slash], [.byte slash, .many false, .byte slash]]]
  | .set negated ranges => [.range negated (ranges.flatMap byteRanges)]
  | .either choices =>
    match choiceParts stop choices with
    | [] => []
    | choices => [.either choices]

def choiceParts (stop : Bool) : List (List Token) → List (List Part)
  | [] => []
  | ts :: rest =>
    match tokenParts stop ts with
    | [] => choiceParts stop rest
    | parts => parts :: choiceParts stop rest

def tokenParts (stop : Bool) : List Token → List Part
  | [] => []
  | t :: rest => t.parts stop ++ tokenParts stop rest

end

def Token.char? : Token → Option Char
  | .char c => some c
  | _ => none

/-- Whether a pattern that ends in a dot stands for single paths: all its tokens are characters, or
behind folders at its start there are only characters with a slash among them. -/
def isFixed : List Token → Bool
  | .leading :: ts =>
    match ts.mapM Token.char? with
    | some cs => cs.contains '/'
    | none => false
  | ts => (ts.mapM Token.char?).isSome

/-- Whether a pattern matches nothing: it asks for an extension or a name that ends in a dot, and a
path that ends in a dot has neither. -/
def isIdle (ts : List Token) : Bool := (ts.getLast?.bind Token.char?) == some '.' && !isFixed ts

def compile (style : Style) : List Token → List Part
  | [.leading] => [.many false]
  | ts =>
    let parts := tokenParts style.stopAtSlash ts
    if isIdle ts then parts ++ [.either []] else parts

def parse? (style : Style) (pattern : String) : Option (List Part) :=
  (tokens? style pattern).map (compile style)

def exclusion : Style := ⟨false, false⟩

def ignoreRule : Style := ⟨true, true⟩

end MutantSieve.Glob
