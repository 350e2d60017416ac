import MutantSieve.Decode.Basic

/-!
# Decoding of classes

An instruction names its kind, which says what other fields it has. The kind may stand anywhere
among the fields, so all of them have to be readable before any is judged.
-/

set_option autoImplicit false

namespace MutantSieve

namespace Decode

def opcode (d : Data) : Decoded Opcode :=
  match text d with
  | .error e => .error e
  | .ok s =>
    match Opcode.parse? s with
    | some o => .ok o
    | none => .error (.rejected (.unknownOpcode s))

def constantTypes : List (String × (Data → Decoded Constant)) :=
  [("int", fun d => (int32 d).map .int),
   ("long", fun d => (int64 d).map .long),
   ("float", fun d => (float Binary.single d).map .float),
   ("double", fun d => (float Binary.double d).map .double),
   ("string", fun d => (text d).map .string),
   ("class", fun d => (text d).map .class)]

def typeNamed (name : String) : Decoded (Data → Decoded Constant) :=
  present (constantTypes.lookup name)

/-- A type as a member of a record: its name, by itself or as the only member of a record without a
value. -/
def memberType : Data → Decoded (Data → Decoded Constant)
  | .text (some name) => typeNamed name
  | .record [(some name, .null)] _ => typeNamed name
  | .record [(some name, .record [] _)] _ => typeNamed name
  | _ => .error .malformed

/-- A type as an item of a list: its name or, as the kind of document has it, its place among all
types. -/
def itemType (dialect : Dialect) : Data → Decoded (Data → Decoded Constant)
  | .text (some name) => typeNamed name
  | .number (.integer i) =>
    if dialect.typeByPlace && decide (0 ≤ i) then
      present (constantTypes[i.toNat]?.map fun t => t.2)
    else .error .malformed
  | _ => .error .malformed

structure ConstantFields where
  type : Option (Data → Decoded Constant) := none
  value : Option Data := none

def ConstantFields.step (f : ConstantFields) (name : String) (d : Data) :
    Decoded ConstantFields :=
  match name with
  | "type" => do return { f with type := ← fill memberType d f.type }
  | "value" => do return { f with value := ← fill .ok d f.value }
  | _ => .ok f

def constant (dialect : Dialect) : Data → Decoded Constant
  | .record ms closed => do
    let f ← record ConstantFields.step {} ms closed
    let decode ← present f.type
    decode (← present f.value)
  | .list ds closed => do
    let (decode, ds) ← next (itemType dialect) ds
    let (c, ds) ← next decode ds
    finished closed ds
    return c
  | _ => .error .malformed

structure InstructionFields where
  opcode : Option Opcode := none
  operand : Option Int32 := none
  constant : Option Constant := none
  slot : Option UInt16 := none
  target : Option UInt32 := none
  owner : Option String := none
  name : Option String := none
  descriptor : Option String := none
  onInterface : Option Bool := none
  className : Option String := none
  id : Option UInt32 := none
  line : Option UInt32 := none
  start : Option UInt32 := none

/-- Takes in one field. A name that no kind of instruction has is passed over. -/
def InstructionFields.take (dialect : Dialect) (f : InstructionFields) (name : String)
    (d : Data) : Decoded InstructionFields :=
  match name with
  | "opcode" => do return { f with opcode := ← fill Decode.opcode d f.opcode }
  | "operand" => do return { f with operand := ← fill int32 d f.operand }
  | "constant" => do
    return { f with constant := ← fill (Decode.constant dialect) d f.constant }
  | "var" => do return { f with slot := ← fill word16 d f.slot }
  | "label" => do return { f with target := ← fill word32 d f.target }
  | "owner" => do return { f with owner := ← fill text d f.owner }
  | "name" => do return { f with name := ← fill text d f.name }
  | "descriptor" => do return { f with descriptor := ← fill text d f.descriptor }
  | "interface" => do return { f with onInterface := ← fill bool d f.onInterface }
  | "class" => do return { f with className := ← fill text d f.className }
  | "id" => do return { f with id := ← fill word32 d f.id }
  | "line" => do return { f with line := ← fill word32 d f.line }
  | "start" => do return { f with start := ← fill word32 d f.start }
  | _ => .ok f

def fieldNames (kind : String) : Option (List String) :=
  match kind with
  | "insn" => some ["opcode"]
  | "int" => some ["opcode", "operand"]
  | "ldc" => some ["constant"]
  | "var" => some ["opcode", "var"]
  | "jump" => some ["opcode", "label"]
  | "field" => some ["opcode", "owner", "name", "descriptor"]
  | "method" => some ["opcode", "owner", "name", "descriptor", "interface"]
  | "type" => some ["opcode", "class"]
  | "label" => some ["id"]
  | "line" => some ["line", "start"]
  | _ => none

/-- The instruction with the given fields. Only the mark of a call on an interface may be
missing. -/
def InstructionFields.build (f : InstructionFields) (kind : String) : Option Instruction :=
  match kind with
  | "insn" => do return .plain (← f.opcode)
  | "int" => do return .int (← f.opcode) (← f.operand)
  | "ldc" => do return .ldc (← f.constant)
  | "var" => do return .slot (← f.opcode) (← f.slot)
  | "jump" => do return .jump (← f.opcode) (← f.target)
  | "field" => do return .field (← f.opcode) (← f.owner) (← f.name) (← f.descriptor)
  | "method" => do
    return .method
      ⟨← f.opcode, ← f.owner, ← f.name, ← f.descriptor, f.onInterface.getD false⟩
  | "type" => do return .type (← f.opcode) (← f.className)
  | "label" => do return .label (← f.id)
  | "line" => do return .line (← f.line) (← f.start)
  | _ => none

def kindOf (ms : List (Option String × Data)) : Option String :=
  match ms.filter fun m => m.1 == some "kind" with
  | [(_, .text kind)] => kind
  | _ => none

def listedFields (dialect : Dialect) (names : List String) (f : InstructionFields) :
    List Data → Decoded (InstructionFields × List Data)
  | [] => .ok (f, [])
  | d :: rest =>
    match names with
    | [] => .ok (f, d :: rest)
    | name :: names =>
      match f.take dialect name d with
      | .error e => .error e
      | .ok f => listedFields dialect names f rest

def instruction (dialect : Dialect) (d : Data) : Decoded Instruction :=
  if !d.clean then .error .malformed
  else
    match d with
    | .record ms _ => do
      let kind ← present (kindOf ms)
      let names ← present (fieldNames kind)
      let own := ms.filter fun m => m.1.any fun name => names.contains name
      let f ← members (InstructionFields.take dialect) {} own
      present (f.build kind)
    | .list (.text (some kind) :: ds) _ => do
      let names ← present (fieldNames kind)
      let (f, rest) ← listedFields dialect names {} ds
      let i ← present (f.build kind)
      finished true rest
      return i
    | _ => .error .malformed

structure MethodFields where
  name : Option String := none
  descriptor : Option String := none
  instructions : Option (List Instruction) := none

def MethodFields.step (dialect : Dialect) (f : MethodFields) (name : String) (d : Data) :
    Decoded MethodFields :=
  match name with
  | "name" => do return { f with name := ← fill text d f.name }
  | "descriptor" => do return { f with descriptor := ← fill text d f.descriptor }
  | "instructions" => do
    return { f with instructions := ← fill (list (instruction dialect)) d f.instructions }
  | _ => skip d f

structure Declaration where
  name : String
  descriptor : String
  instructions : List Instruction

def Declaration.located (className : String) (d : Declaration) : Method :=
  ⟨⟨className, d.name, d.descriptor⟩, d.instructions⟩

def declaration (dialect : Dialect) : Data → Decoded Declaration
  | .record ms closed => do
    let f ← record (MethodFields.step dialect) {} ms closed
    return ⟨← present f.name, ← present f.descriptor, f.instructions.getD []⟩
  | .list ds closed => do
    let (name, ds) ← next text ds
    let (descriptor, ds) ← next text ds
    let (instructions, ds) ← nextOr [] closed (list (instruction dialect)) ds
    dialect.finish closed ds
    return ⟨name, descriptor, instructions⟩
  | _ => .error .malformed

structure ClassFields where
  name : Option String := none
  methods : Option (List Declaration) := none

def ClassFields.step (dialect : Dialect) (f : ClassFields) (name : String) (d : Data) :
    Decoded ClassFields :=
  match name with
  | "name" => do return { f with name := ← fill text d f.name }
  | "methods" => do
    return { f with methods := ← fill (list (declaration dialect)) d f.methods }
  | _ => skip d f

structure ClassForm where
  name : String
  methods : List Declaration

def classForm (dialect : Dialect) : Data → Decoded ClassForm
  | .record ms closed => do
    let f ← record (ClassFields.step dialect) {} ms closed
    return ⟨← present f.name, f.methods.getD []⟩
  | .list ds closed => do
    let (name, ds) ← next text ds
    let (methods, ds) ← nextOr [] closed (list (declaration dialect)) ds
    dialect.finish closed ds
    return ⟨name, methods⟩
  | _ => .error .malformed

def ClassForm.located (form : ClassForm) : List Method :=
  form.methods.map (Declaration.located form.name)

def classTree (dialect : Dialect) (d : Data) : Decoded ClassTree :=
  match classForm dialect d with
  | .error e => .error e
  | .ok form => (ClassTree.new form.name form.located).mapError .rejected

end Decode

end MutantSieve
