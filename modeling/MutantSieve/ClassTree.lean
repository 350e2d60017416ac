import MutantSieve.Instruction
import MutantSieve.Location

/-!
# Class trees

A class with its methods and their bodies. A value of the type has passed the checks on its
methods: each is located in the class, has a readable descriptor and fitting instructions, and no
two share a location. The checks enter the methods into an index, through which a location finds
its method.
-/

set_option autoImplicit false

namespace MutantSieve

structure Method where
  location : Location
  instructions : List Instruction
  deriving DecidableEq, Repr, Inhabited

inductive Check where
  | unknownOpcode (text : String)
  | misfit (instruction : Instruction)
  | foreignMethod (location : Location) (className : String)
  | duplicateMethod (location : Location)
  | badDescriptor (text : String) (fault : MethodDescriptor.Fault)
  deriving DecidableEq, Repr

abbrev MethodIndex := List (Location × Nat)

/-- The first thing wrong with a method of the class `name` that follows the methods of an
index. -/
def Method.fault? (name : String) (index : MethodIndex) (m : Method) : Option Check :=
  if m.location.class ≠ name then some (.foreignMethod m.location name)
  else
    match MethodDescriptor.parse m.location.descriptor with
    | .error fault => some (.badDescriptor m.location.descriptor fault)
    | .ok _ =>
      match m.instructions.find? fun i => !i.fits with
      | some i => some (.misfit i)
      | none =>
        if (index.lookup m.location).isSome then some (.duplicateMethod m.location) else none

def ClassTree.enter (name : String) (index : MethodIndex) (position : Nat) :
    List Method → Except Check MethodIndex
  | [] => .ok index
  | m :: rest =>
    match m.fault? name index with
    | some check => .error check
    | none => enter name ((m.location, position) :: index) (position + 1) rest

structure ClassTree where
  name : String
  methods : List Method
  index : MethodIndex
  entered : ClassTree.enter name [] 0 methods = .ok index
  deriving DecidableEq

namespace ClassTree

def new (name : String) (methods : List Method) : Except Check ClassTree :=
  match h : enter name [] 0 methods with
  | .ok index => .ok ⟨name, methods, index, h⟩
  | .error check => .error check

def empty (name : String) : ClassTree := ⟨name, [], [], rfl⟩

instance : Inhabited ClassTree := ⟨empty ""⟩

def method? (c : ClassTree) (l : Location) : Option Method :=
  (c.index.lookup l).bind fun position => c.methods[position]?

end ClassTree

end MutantSieve
