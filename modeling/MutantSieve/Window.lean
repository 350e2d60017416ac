import MutantSieve.Instruction

/-!
# Windows

A view of a method body from one of its instructions backwards. Looking before the start of the
body, or from a place that is not in it, finds nothing.
-/

set_option autoImplicit false

namespace MutantSieve

structure Window where
  instructions : List Instruction
  point : Nat
  deriving DecidableEq, Repr

namespace Window

def current (w : Window) : Option Instruction := w.instructions[w.point]?

/-- Nothing is found where there is no instruction at the point itself. -/
def back (w : Window) (distance : Nat) : Option Instruction :=
  w.current.bind fun _ =>
    if distance ≤ w.point then w.instructions[w.point - distance]? else none

def carriesBack (w : Window) (distance : Nat) (o : Opcode) : Bool :=
  (w.back distance).any fun i => i.carries o

def zeroBack (w : Window) (distance : Nat) : Bool :=
  (w.back distance).any Instruction.pushesZero

def valueOfBack (w : Window) (distance : Nat) : Bool :=
  (w.back distance).any Instruction.callsValueOf

def emptyStringBack (w : Window) (distance : Nat) : Bool :=
  (w.back distance).any Instruction.pushesEmptyString

def callBack (w : Window) (distance : Nat) (owner name : String) : Bool :=
  (w.back distance).any (Instruction.callsWithoutArguments owner name)

def emptyFactoryBack (w : Window) (distance : Nat) : Bool :=
  emptyFactories.any fun f => w.callBack distance f.1 f.2

theorem back_eq_some_iff (w : Window) (distance : Nat) (i : Instruction) :
    w.back distance = some i ↔
      distance ≤ w.point ∧ w.point < w.instructions.length ∧
        w.instructions[w.point - distance]? = some i := by
  by_cases inside : w.point < w.instructions.length <;>
    by_cases far : distance ≤ w.point <;> simp [back, current, inside, far]

end Window

end MutantSieve
