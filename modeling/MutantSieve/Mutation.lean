import MutantSieve.Location
import MutantSieve.Mutator
import MutantSieve.Text.Digits

/-!
# Mutations

A change that a mutator would make at one instruction of a method, and the order of mutations.
-/

set_option autoImplicit false

namespace MutantSieve

structure MutationId where
  location : Location
  /-- The position of the instruction in the body. -/
  index : UInt64
  mutator : Mutator
  deriving DecidableEq, Repr, Inhabited

structure Mutation where
  id : MutationId
  description : String := ""
  filename : Option String := none
  line : Option UInt32 := none
  deriving DecidableEq, Repr, Inhabited

def Location.compare (l k : Location) : Ordering :=
  ((Ord.compare l.class k.class).then (Ord.compare l.method k.method)).then
    (Ord.compare l.descriptor k.descriptor)

namespace MutationId

def display (i : MutationId) : String :=
  i.location.display ++ "@" ++ Text.natural i.index.toNat ++ " [" ++ i.mutator.uniqueId ++ "]"

def compare (i j : MutationId) : Ordering :=
  ((i.location.compare j.location).then (Ord.compare i.index.toNat j.index.toNat)).then
    (i.mutator.compare j.mutator)

def sort (ids : List MutationId) : List MutationId :=
  ids.mergeSort fun i j => (i.compare j).isLE

def dropRepeats : List MutationId → List MutationId
  | i :: j :: rest => if i = j then dropRepeats (j :: rest) else i :: dropRepeats (j :: rest)
  | ids => ids

end MutationId

end MutantSieve
