import MutantSieve.Toml.Scalar
import MutantSieve.Toml.Table

/-!
# Reading TOML text

A document is a sequence of statements, one a line: a header opens a table, and an assignment gives
a key of the open table its value. A fault anywhere spoils the document. Arrays and inline tables
may be nested to a depth of about 80, and a dotted key may have as many parts.
-/

set_option autoImplicit false

namespace MutantSieve.Toml

def isBareKeyChar (c : Char) : Bool :=
  c.isAlphanum || decide (c = '-') || decide (c = '_')

def readSimpleKey (v : Version) (s : List Char) : Option (String × List Char) :=
  match s with
  | '"' :: r => (basic v r).map fun (cs, r) => (String.ofList cs, r)
  | '\x27' :: r => (literal r).map fun (cs, r) => (String.ofList cs, r)
  | s =>
    match s.takeWhile isBareKeyChar with
    | [] => none
    | cs => some (String.ofList cs, s.dropWhile isBareKeyChar)

def readKeys (v : Version) : Nat → List Char → Option (List String × List Char)
  | 0, _ => none
  | fuel + 1, s => do
    let (key, r) ← readSimpleKey v (skipBlanks s)
    match skipBlanks r with
    | '.' :: r => do
      let (keys, r) ← readKeys v fuel r
      return (key :: keys, r)
    | r => return ([key], r)

/-- How deep arrays and inline tables may be nested, and how many parts a dotted key may have. -/
def deepest (v : Version) : Nat :=
  match v with
  | .v10 => 79
  | .v11 => 80

def readPath (v : Version) (s : List Char) : Option (List String × String × List Char) := do
  let (keys, r) ← readKeys v (s.length + 1) s
  let last ← keys.getLast?
  if keys.length ≤ deepest v then some (keys.dropLast, last, r) else none

def skipComment (s : List Char) : Option (List Char) :=
  let r := s.dropWhile fun c => isVisible c
  match r with
  | [] => some []
  | '\n' :: _ => some r
  | '\r' :: '\n' :: _ => some r
  | _ => none

def lineEnd (s : List Char) : Option (List Char) := do
  let r ←
    match skipBlanks s with
    | '#' :: r => skipComment r
    | r => some r
  match r with
  | [] => some []
  | '\n' :: r => some r
  | '\r' :: '\n' :: r => some r
  | _ => none

def skipGap (inComment : Bool) : List Char → Option (List Char)
  | [] => some []
  | '\n' :: r => skipGap false r
  | '\r' :: '\n' :: r => skipGap false r
  | c :: r =>
    if inComment then if isVisible c then skipGap true r else none
    else if isBlank c then skipGap false r
    else if c = '#' then skipGap true r
    else some (c :: r)

def between (s : List Char) : Option (List Char) := skipGap false s

/-- Passes over what may stand between the parts of an inline table: blanks, and from version 1.1 on
also comments and line ends. -/
def betweenEntries (v : Version) (s : List Char) : Option (List Char) :=
  match v with
  | .v10 => some (skipBlanks s)
  | .v11 => between s

mutual

def readValue (v : Version) (fuel depth : Nat) (s : List Char) : Option (Data × List Char) :=
  match fuel with
  | 0 => none
  | fuel + 1 =>
    match s with
    | '[' :: r => if depth < deepest v then readItems v fuel (depth + 1) [] r else none
    | '{' :: r =>
      if depth < deepest v then do
        let r ← betweenEntries v r
        match r with
        | '}' :: r => return (.record [] true, r)
        | r => readEntries v fuel (depth + 1) Table.empty r
      else none
    | '"' :: _ | '\x27' :: _ =>
      (readString v s).map fun (cs, r) => (.text (some (String.ofList cs)), r)
    | s => readScalar v s

/-- The items of an array from behind its opening or a comma; `done` holds those before, the last
one first. -/
def readItems (v : Version) (fuel depth : Nat) (done : List Data) (s : List Char) :
    Option (Data × List Char) :=
  match fuel with
  | 0 => none
  | fuel + 1 => do
    let r ← between s
    match r with
    | ']' :: r => return (.list done.reverse true, r)
    | r => do
      let (item, r) ← readValue v fuel depth r
      let r ← between r
      match r with
      | ']' :: r => return (.list (item :: done).reverse true, r)
      | ',' :: r => readItems v fuel depth (item :: done) r
      | _ => none

/-- The entries of an inline table from a key on. From version 1.1 on a comma may follow the last
one. -/
def readEntries (v : Version) (fuel depth : Nat) (t : Table) (s : List Char) :
    Option (Data × List Char) :=
  match fuel with
  | 0 => none
  | fuel + 1 => do
    let (path, key, r) ← readPath v s
    let r ← betweenEntries v r
    match r with
    | '=' :: r => do
      let r ← betweenEntries v r
      let (d, r) ← readValue v fuel depth r
      let t ← t.assign path key d
      let r ← betweenEntries v r
      match r with
      | '}' :: r => return (t.toData, r)
      | ',' :: r => do
        let r ← betweenEntries v r
        match v, r with
        | .v11, '}' :: r => return (t.toData, r)
        | _, r => readEntries v fuel depth t r
      | _ => none
    | _ => none

end

inductive Statement where
  | nothing
  | table (path : List String) (key : String)
  | item (path : List String) (key : String)
  | assignment (path : List String) (key : String) (data : Data)
  deriving Inhabited

def readStatement (v : Version) (s : List Char) : Option (Statement × List Char) :=
  match skipBlanks s with
  | '[' :: '[' :: r => do
    let (path, key, r) ← readPath v r
    match r with
    | ']' :: ']' :: r => return (.item path key, r)
    | _ => none
  | '[' :: r => do
    let (path, key, r) ← readPath v r
    match r with
    | ']' :: r => return (.table path key, r)
    | _ => none
  | [] => some (.nothing, [])
  | c :: r =>
    if c = '#' ∨ c = '\n' ∨ c = '\r' then some (.nothing, c :: r)
    else do
      let (path, key, r) ← readPath v (c :: r)
      match r with
      | '=' :: r => do
        let (d, r) ← readValue v (2 * r.length + 2) 0 (skipBlanks r)
        return (.assignment path key d, r)
      | _ => none

def readStatements (v : Version) : Nat → List Char → Option (List Statement)
  | 0, _ => none
  | fuel + 1, s =>
    if s.isEmpty then some []
    else do
      let (statement, r) ← readStatement v s
      let r ← lineEnd r
      let rest ← readStatements v fuel r
      return statement :: rest

structure Draft where
  root : Table
  header : List String

def Draft.take (d : Draft) : Statement → Option Draft
  | .nothing => some d
  | .table path key => do
    return ⟨← d.root.openTable path key, path ++ [key]⟩
  | .item path key => do
    return ⟨← d.root.openItem path key, path ++ [key]⟩
  | .assignment path key data => do
    return { d with root := ← d.root.within false (Table.assign path key data) d.header }

def read (v : Version) (text : String) : Option Data := do
  let s := text.toList
  let s := if s.head? = some '\uFEFF' then s.drop 1 else s
  let statements ← readStatements v (s.length + 1) s
  let d ← statements.foldlM Draft.take ⟨Table.empty, []⟩
  return d.root.toData

end MutantSieve.Toml
