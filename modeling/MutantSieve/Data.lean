import MutantSieve.Binary.Basic
import MutantSieve.Word

/-!
# Data

What a document holds before its meaning is known. A document with a fault in it is read up to the
fault, so that what stands before the fault can be judged first: a `cut` value is one that could not
be read, and lists and records tell whether their end was reached. Some values can be skipped but
not used: a number beyond all doubles, a text with half of a surrogate pair, and a list or record
that is nested too deeply.
-/

set_option autoImplicit false

namespace MutantSieve

inductive Numeral where
  | integer (value : Int)
  | float (value : Binary)
  | huge
  deriving DecidableEq, Repr, Inhabited

inductive Data where
  | cut
  | null
  | bool (value : Bool)
  | number (value : Numeral)
  /-- Absent for a text with half of a surrogate pair. -/
  | text (value : Option String)
  | list (items : List Data) (closed : Bool)
  | record (members : List (Option String × Data)) (closed : Bool)
  | deep (inner : Data)
  deriving Inhabited

namespace Data

mutual

/-- Whether a value can be skipped. -/
def intact : Data → Bool
  | cut => false
  | list items closed => closed && itemsIntact items
  | record members closed => closed && membersIntact members
  | deep inner => inner.intact
  | _ => true

def itemsIntact : List Data → Bool
  | [] => true
  | d :: rest => d.intact && itemsIntact rest

def membersIntact : List (Option String × Data) → Bool
  | [] => true
  | (_, d) :: rest => d.intact && membersIntact rest

end

def inRange (i : Int) : Bool := Word.signed 64 i || Word.unsigned 64 i

mutual

/-- Whether a value can be used, with all that is in it. -/
def clean : Data → Bool
  | cut => false
  | number .huge => false
  | number (.integer i) => inRange i
  | text none => false
  | list items closed => closed && itemsClean items
  | record members closed => closed && membersClean members
  | deep _ => false
  | _ => true

def itemsClean : List Data → Bool
  | [] => true
  | d :: rest => d.clean && itemsClean rest

def membersClean : List (Option String × Data) → Bool
  | [] => true
  | (name, d) :: rest => name.isSome && d.clean && membersClean rest

end

end Data

end MutantSieve
