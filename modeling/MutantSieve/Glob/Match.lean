/-!
# Matching of globs

A glob is a sequence of parts, each of which takes some bytes of a path from where the part before
stopped. It matches a path if its parts can take all of it. All ways to do so are followed at once:
each part leads from a set of places in the path to another.
-/

set_option autoImplicit false

namespace MutantSieve.Glob

inductive Part where
  | byte (b : UInt8)
  /-- One byte; no slash if `within` a name. -/
  | one (within : Bool)
  /-- Any number of bytes; no slash if `within` a name. -/
  | many (within : Bool)
  /-- One byte in, or outside, the ranges. -/
  | range (outside : Bool) (ranges : List (UInt8 × UInt8))
  | either (choices : List (List Part))
  deriving Inhabited

def slash : UInt8 := 47

def free (within : Bool) (b : UInt8) : Bool := !within || decide (b ≠ slash)

def inRanges (ranges : List (UInt8 × UInt8)) (b : UInt8) : Bool :=
  ranges.any fun r => decide (r.1 ≤ b) && decide (b ≤ r.2)

/-- Marks at the places in a text: in front of each byte, and at the end. -/
abbrev Marks := List Bool

/-- The places behind one byte that satisfies a condition, from the marked ones. `here` tells
whether the first place is such a place. -/
def takeOne (valid : UInt8 → Bool) (here : Bool) : List UInt8 → Marks → Marks
  | b :: s, m :: ms => here :: takeOne valid (m && valid b) s ms
  | _, _ => [here]

def takeMany (valid : UInt8 → Bool) (here : Bool) : List UInt8 → Marks → Marks
  | b :: s, m :: ms => (here || m) :: takeMany valid ((here || m) && valid b) s ms
  | _, ms => [here || ms.headD false]

def both (ms ns : Marks) : Marks := ms.zipWith (fun m n => m || n) ns

mutual

def Part.reach (s : List UInt8) (ms : Marks) : Part → Marks
  | .byte b => takeOne (fun c => decide (c = b)) false s ms
  | .one within => takeOne (free within) false s ms
  | .many within => takeMany (free within) false s ms
  | .range outside ranges => takeOne (fun c => inRanges ranges c != outside) false s ms
  | .either choices => reachByChoice s ms choices

def reachByChoice (s : List UInt8) (ms : Marks) : List (List Part) → Marks
  | [] => ms.map fun _ => false
  | parts :: rest => both (reachInTurn s ms parts) (reachByChoice s ms rest)

def reachInTurn (s : List UInt8) (ms : Marks) : List Part → Marks
  | [] => ms
  | part :: parts => reachInTurn s (part.reach s ms) parts

end

mutual

/-- How deep the parts of a part are nested: a set, a set of several ranges, a repetition, a choice
and its branches, where there are several, each add one level. -/
def Part.depth : Part → Nat
  | .byte _ => 0
  | .one within => if within then 1 else 0
  | .many within => if within then 2 else 1
  | .range _ ranges => if ranges.length ≤ 1 then 1 else 2
  | .either choices => (if choices.length ≤ 1 then 1 else 2) + branchesDepth choices

def branchesDepth : List (List Part) → Nat
  | [] => 0
  | parts :: rest =>
    max ((if parts.length ≤ 1 then 0 else 1) + partsDepth parts) (branchesDepth rest)

def partsDepth : List Part → Nat
  | [] => 0
  | part :: rest => max part.depth (partsDepth rest)

end

def deepest : Nat := 249

def isTooDeep (parts : List Part) : Bool := decide (deepest < partsDepth parts)

def matchesBytes (parts : List Part) (s : List UInt8) : Bool :=
  (reachInTurn s (true :: s.map fun _ => false) parts).getLast? == some true

def matchesPath (parts : List Part) (path : String) : Bool :=
  matchesBytes parts path.toUTF8.toList

end MutantSieve.Glob
