/-!
# Letter case

Names are compared without regard to the case of the ASCII letters. Lower case in the wider sense
matters only where it leads to an ASCII letter.
-/

set_option autoImplicit false

namespace MutantSieve.Text

def sameLetters (s t : String) : Bool :=
  s.toList.map Char.toLower == t.toList.map Char.toLower

/-- Lower case as far as it leads to an ASCII letter. Besides the capitals `A` to `Z` only the
Kelvin sign does. -/
def lowerLetter (c : Char) : Char :=
  if c = '\u212A' then 'k' else c.toLower

def lowerLetters (s : String) : String := String.ofList (s.toList.map lowerLetter)

theorem sameLetters_refl (s : String) : sameLetters s s = true := by simp [sameLetters]

theorem sameLetters_comm (s t : String) : sameLetters s t = sameLetters t s := by
  simp only [sameLetters]
  exact Bool.beq_comm

end MutantSieve.Text
