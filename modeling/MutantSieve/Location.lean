/-!
# Locations

Where a method is found: its class, its name and its descriptor.
-/

set_option autoImplicit false

namespace MutantSieve

structure Location where
  «class» : String
  method : String
  descriptor : String
  deriving DecidableEq, Repr, Inhabited

def Location.display (l : Location) : String :=
  l.class ++ "::" ++ l.method ++ l.descriptor

end MutantSieve
