import MutantSieve.Binary.Text
import MutantSieve.Descriptor
import MutantSieve.Opcode

/-!
# Instructions

One instruction of a method body. The shape of an instruction and its opcode are read apart from
each other; `Instruction.fits` says which opcodes go with which shape.
-/

set_option autoImplicit false

namespace MutantSieve

inductive Constant where
  | int (value : Int32)
  | long (value : Int64)
  | float (value : Binary)
  | double (value : Binary)
  | string (value : String)
  | «class» (name : String)
  deriving DecidableEq, Repr, Inhabited

structure Call where
  opcode : Opcode
  owner : String
  name : String
  descriptor : String
  onInterface : Bool := false
  deriving DecidableEq, Repr, Inhabited

inductive Instruction where
  | plain (opcode : Opcode)
  | int (opcode : Opcode) (operand : Int32)
  | ldc (constant : Constant)
  | slot (opcode : Opcode) (index : UInt16)
  | jump (opcode : Opcode) (label : UInt32)
  | field (opcode : Opcode) (owner name descriptor : String)
  | method (call : Call)
  | type (opcode : Opcode) (className : String)
  | label (id : UInt32)
  | line (number start : UInt32)
  deriving DecidableEq, Repr, Inhabited

def Constant.display : Constant → String
  | int value => String.ofList (Text.integer value.toInt)
  | long value => String.ofList (Text.integer value.toInt ++ ['L'])
  | float value => String.ofList (Binary.single.display value ++ ['F'])
  | double value => String.ofList (Binary.double.display value ++ ['D'])
  | string value => Text.quoted value
  | «class» name => name ++ ".class"

def emptyFactories : List (String × String) :=
  [("java/util/Optional", "empty"), ("java/util/Collections", "emptyList"),
   ("java/util/Collections", "emptySet"), ("java/util/List", "of"), ("java/util/Set", "of")]

namespace Instruction

def opcode? : Instruction → Option Opcode
  | plain o | int o _ | slot o _ | jump o _ | field o .. | type o _ => some o
  | ldc _ => some .ldc
  | method call => some call.opcode
  | label _ | line .. => none

def carries (i : Instruction) (o : Opcode) : Bool := i.opcode? = some o

/-- Whether the opcode belongs to the shape of the instruction, and a pushed integer to the range
of its opcode. -/
def fits : Instruction → Bool
  | plain o =>
    !(o.isInvoke || o.isVariable || o.isJump || o.isField || o.isType) &&
      decide (o ≠ .bipush) && decide (o ≠ .sipush) && decide (o ≠ .ldc)
  | int .bipush n => decide (-128 ≤ n.toInt) && decide (n.toInt ≤ 127)
  | int .sipush n => decide (-32768 ≤ n.toInt) && decide (n.toInt ≤ 32767)
  | int _ _ => false
  | slot o _ => o.isVariable
  | jump o _ => o.isJump
  | field o .. => o.isField
  | method call => call.opcode.isInvoke
  | type o _ => o.isType
  | ldc _ | label _ | line .. => true

def display : Instruction → String
  | plain o => o.mnemonic
  | int o operand => o.mnemonic ++ " " ++ String.ofList (Text.integer operand.toInt)
  | ldc constant => "LDC " ++ constant.display
  | slot o index => o.mnemonic ++ " " ++ Text.natural index.toNat
  | jump o target => o.mnemonic ++ " L" ++ Text.natural target.toNat
  | field o owner name descriptor =>
    o.mnemonic ++ " " ++ owner ++ "." ++ name ++ " : " ++ descriptor
  | method call =>
    call.opcode.mnemonic ++ " " ++ call.owner ++ "." ++ call.name ++ " " ++ call.descriptor
  | type o className => o.mnemonic ++ " " ++ className
  | label id => "L" ++ Text.natural id.toNat
  | line number start =>
    "LINENUMBER " ++ Text.natural number.toNat ++ " L" ++ Text.natural start.toNat

def pushesZero (i : Instruction) : Bool := i.opcode?.any Opcode.isZero

/-- A call of a method named `valueOf`, whoever owns it. -/
def callsValueOf : Instruction → Bool
  | method call => call.name = "valueOf"
  | _ => false

def pushesEmptyString : Instruction → Bool
  | ldc (.string value) => value = ""
  | _ => false

def callsWithoutArguments (owner name : String) : Instruction → Bool
  | method call =>
    decide (call.owner = owner) && decide (call.name = name) &&
      match MethodDescriptor.argumentCount call.descriptor with
      | .ok count => count = 0
      | .error _ => false
  | _ => false

def virtualCall (owner name descriptor : String) : Instruction :=
  method ⟨.invokevirtual, owner, name, descriptor, false⟩

def staticCall (owner name descriptor : String) : Instruction :=
  method ⟨.invokestatic, owner, name, descriptor, false⟩

def interfaceCall (owner name descriptor : String) : Instruction :=
  method ⟨.invokeinterface, owner, name, descriptor, true⟩

end Instruction

end MutantSieve
