/-!
# Words

The integers that have a place in a word of some number of bits.
-/

set_option autoImplicit false

namespace MutantSieve.Word

def size (bits : Nat) : Nat := Nat.pow 2 bits

def unsigned (bits : Nat) (i : Int) : Bool := decide (0 ≤ i) && decide (i < Int.ofNat (size bits))

def signed (bits : Nat) (i : Int) : Bool :=
  decide (-Int.ofNat (size (bits - 1)) ≤ i) && decide (i < Int.ofNat (size (bits - 1)))

end MutantSieve.Word
