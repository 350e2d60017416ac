import MutantSieve.Binary.Basic
import MutantSieve.Word

/-!
# Elapsed time

A span of time in whole nanoseconds. It is written, and read, as a double number of seconds.
-/

set_option autoImplicit false

namespace MutantSieve

structure Elapsed where
  nanos : Nat
  deriving DecidableEq, Repr, Inhabited

namespace Elapsed

def perSecond : Nat := 1000000000

/-- The span nearest to a number of seconds. There is none for a negative number, except for the
negative zero, and none from `2 ^ 64` seconds on. -/
def ofSeconds : Binary → Option Elapsed
  | .finite negative m q =>
    if negative && decide (m ≠ 0) then none
    else
      let nanos := Binary.divNearest (m * perSecond * Binary.up q) (Binary.down q)
      if nanos < Word.size 64 * perSecond then some ⟨nanos⟩ else none
  | _ => none

def seconds (e : Elapsed) : Binary :=
  Binary.double.sum (Binary.double.ofInt (e.nanos / perSecond))
    (Binary.double.over (Binary.double.ofInt (e.nanos % perSecond))
      (Binary.double.ofInt perSecond))

end Elapsed

end MutantSieve
