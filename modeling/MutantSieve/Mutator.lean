import MutantSieve.Text.Blank
import MutantSieve.Text.Letters

/-!
# Mutators

The kinds of change that a mutation makes. The known ones have a short name and a class name in a
common package; any other is known by its identifier alone.
-/

set_option autoImplicit false

namespace MutantSieve

inductive Mutator where
  | primitiveReturns
  | trueReturns
  | falseReturns
  | nullReturns
  | emptyReturns
  | returnVals
  | conditionalsBoundary
  | increments
  | invertNegatives
  | math
  | negateConditionals
  | voidMethodCalls
  | nonVoidMethodCalls
  | other (id : String)
  deriving DecidableEq, Repr, Inhabited

namespace Mutator

def known : List Mutator :=
  [primitiveReturns, trueReturns, falseReturns, nullReturns, emptyReturns, returnVals,
   conditionalsBoundary, increments, invertNegatives, math, negateConditionals, voidMethodCalls,
   nonVoidMethodCalls]

def package : String := "org.pitest.mutationtest.engine.gregor.mutators"

def shortName? : Mutator → Option String
  | primitiveReturns => some "PRIMITIVE_RETURNS"
  | trueReturns => some "TRUE_RETURNS"
  | falseReturns => some "FALSE_RETURNS"
  | nullReturns => some "NULL_RETURNS"
  | emptyReturns => some "EMPTY_RETURNS"
  | returnVals => some "RETURN_VALS"
  | conditionalsBoundary => some "CONDITIONALS_BOUNDARY"
  | increments => some "INCREMENTS"
  | invertNegatives => some "INVERT_NEGS"
  | math => some "MATH"
  | negateConditionals => some "NEGATE_CONDITIONALS"
  | voidMethodCalls => some "VOID_METHOD_CALLS"
  | nonVoidMethodCalls => some "NON_VOID_METHOD_CALLS"
  | other _ => none

def uniqueId : Mutator → String
  | primitiveReturns => package ++ ".PrimitiveReturnsMutator"
  | trueReturns => package ++ ".BooleanTrueReturnValsMutator"
  | falseReturns => package ++ ".BooleanFalseReturnValsMutator"
  | nullReturns => package ++ ".NullReturnValsMutator"
  | emptyReturns => package ++ ".EmptyObjectReturnValsMutator"
  | returnVals => package ++ ".ReturnValsMutator"
  | conditionalsBoundary => package ++ ".ConditionalsBoundaryMutator"
  | increments => package ++ ".IncrementsMutator"
  | invertNegatives => package ++ ".InvertNegsMutator"
  | math => package ++ ".MathMutator"
  | negateConditionals => package ++ ".NegateConditionalsMutator"
  | voidMethodCalls => package ++ ".VoidMethodCallMutator"
  | nonVoidMethodCalls => package ++ ".NonVoidMethodCallMutator"
  | other id => id

def label (m : Mutator) : String := m.shortName?.getD m.uniqueId

def isKnown : Mutator → Bool
  | other _ => false
  | _ => true

/-- The mutator that a text names, by its short name in any case or by its identifier. -/
def ofId (text : String) : Mutator :=
  let id := Text.trimmed text
  (known.find? fun m =>
    m.shortName?.any (Text.sameLetters id) || decide (id = m.uniqueId)).getD (other id)

def rank : Mutator → Nat
  | primitiveReturns => 0
  | trueReturns => 1
  | falseReturns => 2
  | nullReturns => 3
  | emptyReturns => 4
  | returnVals => 5
  | conditionalsBoundary => 6
  | increments => 7
  | invertNegatives => 8
  | math => 9
  | negateConditionals => 10
  | voidMethodCalls => 11
  | nonVoidMethodCalls => 12
  | other _ => 13

def compare (m n : Mutator) : Ordering :=
  match m, n with
  | other i, other j => Ord.compare i j
  | m, n => Ord.compare m.rank n.rank

end Mutator

end MutantSieve
