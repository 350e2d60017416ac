import MutantSieve.Interceptor
import MutantSieve.Window

/-!
# Patterns of equivalent returns

A mutation of a return replaces the value that the method returns. Where the one or two
instructions before the return already produce the replacement, nothing changes, and the mutation
is dropped. There are four families of such mutations.
-/

set_option autoImplicit false

namespace MutantSieve

inductive Pattern where
  | primitiveZero
  | hardcodedTrue
  | nullReturn
  | emptyReturn
  deriving DecidableEq, Repr

namespace Pattern

def all : List Pattern := [primitiveZero, hardcodedTrue, nullReturn, emptyReturn]

def name : Pattern → String
  | primitiveZero => "primitive_zero"
  | hardcodedTrue => "hardcoded_true"
  | nullReturn => "null_return"
  | emptyReturn => "empty_return"

def accepts : Pattern → Mutator → Bool
  | primitiveZero, .primitiveReturns | primitiveZero, .falseReturns => true
  | hardcodedTrue, .trueReturns => true
  | nullReturn, .nullReturns => true
  | emptyReturn, .emptyReturns | emptyReturn, .falseReturns => true
  | _, _ => false

/-- Whether the instructions before the point produce the replacement. A value may have been boxed
by a call of `valueOf` just before the point. -/
def found : Pattern → Window → Bool
  | primitiveZero, w => w.zeroBack 1
  | hardcodedTrue, w => w.carriesBack 1 .iconst1 || (w.carriesBack 2 .iconst1 && w.valueOfBack 1)
  | nullReturn, w => w.carriesBack 1 .aconstNull
  | emptyReturn, w =>
    (w.valueOfBack 1 && w.zeroBack 2) || w.emptyStringBack 1 || w.emptyFactoryBack 1

/-- The verdict on a mutation. Outside the family it does not depend on the class. -/
def verdict (p : Pattern) (c : ClassTree) (m : Mutation) : Except Error Bool :=
  if p.accepts m.id.mutator then
    match c.resolve m.id.location with
    | .ok method => .ok (p.found ⟨method.instructions, m.id.index.toNat⟩)
    | .error e => .error e
  else .ok false

def interceptor (p : Pattern) : Interceptor := .filter { name := p.name, verdict := p.verdict }

end Pattern

def equivalentReturns : Interceptor :=
  .group "equivalent_returns" (Pattern.all.map Pattern.interceptor)

end MutantSieve
