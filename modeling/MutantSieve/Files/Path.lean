import MutantSieve.Text.Letters
import MutantSieve.UnitFile

/-!
# Paths

A path is a text with slashes between its parts. Paths are compared by their components, for which
repeated slashes, a slash at the end and dots behind the first part do not count.
-/

set_option autoImplicit false

namespace MutantSieve.Path

def splitSlash : List Char → List (List Char)
  | [] => [[]]
  | c :: r =>
    if c = '/' then [] :: splitSlash r
    else
      match splitSlash r with
      | [] => [[c]]
      | p :: ps => (c :: p) :: ps

inductive Component where
  | root
  | current
  | parent
  | name (text : String)
  deriving DecidableEq, Repr

def Component.rank : Component → Nat
  | root => 0
  | current => 1
  | parent => 2
  | name _ => 3

def Component.compare (a b : Component) : Ordering :=
  match a, b with
  | name s, name t => Ord.compare s t
  | a, b => Ord.compare a.rank b.rank

def laterComponent (p : List Char) : Option Component :=
  if p = [] ∨ p = ['.'] then none
  else if p = ['.', '.'] then some .parent
  else some (.name (String.ofList p))

def components (path : String) : List Component :=
  match splitSlash path.toList with
  | [] => []
  | [] :: rest =>
    if rest.isEmpty then [] else .root :: rest.filterMap laterComponent
  | ['.'] :: rest => .current :: rest.filterMap laterComponent
  | parts => parts.filterMap laterComponent

def compareComponents : List Component → List Component → Ordering
  | [], [] => .eq
  | [], _ :: _ => .lt
  | _ :: _, [] => .gt
  | a :: as, b :: bs => (a.compare b).then (compareComponents as bs)

def compare (p q : String) : Ordering := compareComponents (components p) (components q)

def same (p q : String) : Bool := decide (components p = components q)

def behind? (front path : String) : Option String :=
  if front.toList.isPrefixOf path.toList then
    some (String.ofList (path.toList.drop front.toList.length))
  else none

def without (front path : String) : String := (behind? front path).getD path

def isAbsolute (path : String) : Bool := path.toList.head? == some '/'

/-- One path within another; an absolute path stays as it is. -/
def join (base path : String) : String :=
  if isAbsolute path || base.isEmpty then path
  else if base.toList.getLast? = some '/' then base ++ path
  else base ++ "/" ++ path

def fileName? (path : String) : Option String :=
  match (components path).getLast? with
  | some (.name text) => some text
  | _ => none

/-- The text behind the last dot of a name that does not stand at its start. -/
def extensionOf (name : List Char) : Option (List Char) :=
  match name.reverse.dropWhile (· ≠ '.') with
  | [] => none
  | _ :: stem => if stem.isEmpty then none else some (name.reverse.takeWhile (· ≠ '.')).reverse

def unitFormat? (path : String) : Option UnitFormat :=
  match (fileName? path).bind fun name => extensionOf name.toList with
  | none => none
  | some e =>
    if Text.sameLetters (String.ofList e) "json" then some .json
    else if Text.sameLetters (String.ofList e) "toml" then some .toml
    else none

end MutantSieve.Path
