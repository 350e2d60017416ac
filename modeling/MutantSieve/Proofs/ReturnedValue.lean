import MutantSieve.Proofs.Verdict

/-!
# Returned values

What a method returns at a place of its body, as far as the one or two instructions before it tell,
and what a mutator puts there instead. A value is known when it is a constant, a constant boxed by
the boxing method of a wrapper class, or the empty value of a factory. Of the result of any other
call nothing is known.
-/

set_option autoImplicit false

namespace MutantSieve

inductive Wrapper where
  | boolean
  | byte
  | character
  | short
  | integer
  | long
  | float
  | double
  deriving DecidableEq, Repr

namespace Wrapper

def all : List Wrapper := [boolean, byte, character, short, integer, long, float, double]

def owner : Wrapper → String
  | boolean => "java/lang/Boolean"
  | byte => "java/lang/Byte"
  | character => "java/lang/Character"
  | short => "java/lang/Short"
  | integer => "java/lang/Integer"
  | long => "java/lang/Long"
  | float => "java/lang/Float"
  | double => "java/lang/Double"

def content : Wrapper → FieldType
  | boolean => .boolean
  | byte => .byte
  | character => .char
  | short => .short
  | integer => .int
  | long => .long
  | float => .float
  | double => .double

def boxing (w : Wrapper) : MethodDescriptor := ⟨[w.content], some (.object w.owner)⟩

def Boxes (w : Wrapper) (call : Call) : Prop :=
  call.opcode = .invokestatic ∧ call.owner = w.owner ∧ call.name = "valueOf" ∧
    call.descriptor = w.boxing.display

theorem owner_injective : Function.Injective owner := by
  intro w v same
  cases w <;> cases v <;> simp [owner] at same ⊢

end Wrapper

inductive Value where
  | null
  | constant (constant : Constant)
  | boxed (wrapper : Wrapper) (content : Value)
  /-- The empty value of a type of collections. -/
  | empty (typeName : String)
  deriving DecidableEq

def Opcode.pushed? : Opcode → Option Value
  | aconstNull => some .null
  | iconstM1 => some (.constant (.int (-1)))
  | iconst0 => some (.constant (.int 0))
  | iconst1 => some (.constant (.int 1))
  | iconst2 => some (.constant (.int 2))
  | iconst3 => some (.constant (.int 3))
  | iconst4 => some (.constant (.int 4))
  | iconst5 => some (.constant (.int 5))
  | lconst0 => some (.constant (.long 0))
  | lconst1 => some (.constant (.long 1))
  | fconst0 => some (.constant (.float (Binary.single.ofInt 0)))
  | fconst1 => some (.constant (.float (Binary.single.ofInt 1)))
  | fconst2 => some (.constant (.float (Binary.single.ofInt 2)))
  | dconst0 => some (.constant (.double (Binary.double.ofInt 0)))
  | dconst1 => some (.constant (.double (Binary.double.ofInt 1)))
  | _ => none

def Instruction.pushed? : Instruction → Option Value
  | plain o => o.pushed?
  | ldc constant => some (.constant constant)
  | _ => none

def emptyType (owner name : String) : String :=
  if owner = "java/util/Collections" then
    if name = "emptyList" then "java/util/List" else "java/util/Set"
  else owner

/-- The known values that are returned at place `i` of a body. -/
inductive Returns (body : List Instruction) (i : Nat) : Value → Prop
  | constant {x : Instruction} {v : Value} (before : Before body i 1 x)
      (pushes : x.pushed? = some v) : Returns body i v
  | boxed {call : Call} {w : Wrapper} {x : Instruction} {v : Value}
      (before : Before body i 1 (.method call)) (boxes : w.Boxes call) (below : Before body i 2 x)
      (pushes : x.pushed? = some v) : Returns body i (.boxed w v)
  | empty {call : Call} (before : Before body i 1 (.method call)) (factory : call.EmptyFactory) :
      Returns body i (.empty (emptyType call.owner call.name))

def FieldType.zero? : FieldType → Option Value
  | byte | char | short | int | boolean => some (.constant (.int 0))
  | long => some (.constant (.long 0))
  | float => some (.constant (.float (Binary.single.ofInt 0)))
  | double => some (.constant (.double (Binary.double.ofInt 0)))
  | object _ | array _ => none

def FieldType.truth? (n : Int32) : FieldType → Option Value
  | boolean => some (.constant (.int n))
  | object name =>
    if name = Wrapper.boolean.owner then some (.boxed .boolean (.constant (.int n))) else none
  | _ => none

def emptyCollections : List String := ["java/util/Optional", "java/util/List", "java/util/Set"]

def emptyValue? (className : String) : Option Value :=
  if className = "java/lang/String" then some (.constant (.string ""))
  else if className ∈ emptyCollections then some (.empty className)
  else
    match Wrapper.all.find? fun w => w.owner = className with
    | some w => w.content.zero?.map (.boxed w)
    | none => none

/-- What a mutator puts in the place of a returned value of a type; nothing where it does not
change values of the type. -/
def Mutator.replacement? : Mutator → FieldType → Option Value
  | primitiveReturns, t => t.zero?
  | trueReturns, t => t.truth? 1
  | falseReturns, t => t.truth? 0
  | nullReturns, .object _ | nullReturns, .array _ => some .null
  | emptyReturns, .object name => emptyValue? name
  | _, _ => none

def Mutator.Substitutes (u : Mutator) (v : Value) : Prop := ∃ t, u.replacement? t = some v

/-- The types that a value may be returned with. -/
def Value.HasType : Value → FieldType → Prop
  | null, .object _ | null, .array _ => True
  | constant (.int _), t => t ∈ [FieldType.byte, .char, .short, .int, .boolean]
  | constant (.long _), t => t = .long
  | constant (.float _), t => t = .float
  | constant (.double _), t => t = .double
  | constant (.string _), t => t = .object "java/lang/String"
  | constant (.class _), t => t = .object "java/lang/Class"
  | boxed w v, t => t = .object w.owner ∧ v.HasType w.content
  | empty name, t => t = .object name
  | _, _ => False

/-- Ints stand for the values of all types that are narrower, and for truth values. -/
theorem Value.hasType_int (n : Int32) (t : FieldType) :
    (constant (.int n)).HasType t ↔ t ∈ [FieldType.byte, .char, .short, .int, .boolean] := Iff.rfl

end MutantSieve
