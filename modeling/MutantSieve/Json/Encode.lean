import MutantSieve.ClassTree
import MutantSieve.Json.Value
import MutantSieve.Mutation

/-!
# JSON forms of classes and mutations

The members stand in a fixed order. Of a mutation the source position is written only where it is
known.
-/

set_option autoImplicit false

namespace MutantSieve

def Constant.toJson : Constant → Json
  | int value => .record [("type", .text "int"), ("value", .int value.toInt)]
  | long value => .record [("type", .text "long"), ("value", .int value.toInt)]
  | float value => .record [("type", .text "float"), ("value", .float Binary.single value)]
  | double value => .record [("type", .text "double"), ("value", .double value)]
  | string value => .record [("type", .text "string"), ("value", .text value)]
  | «class» name => .record [("type", .text "class"), ("value", .text name)]

def Instruction.kind : Instruction → String
  | plain _ => "insn"
  | int .. => "int"
  | ldc _ => "ldc"
  | slot .. => "var"
  | jump .. => "jump"
  | field .. => "field"
  | method _ => "method"
  | type .. => "type"
  | label _ => "label"
  | line .. => "line"

def Opcode.toJson (o : Opcode) : Json := .text o.mnemonic

def Instruction.members : Instruction → List (String × Json)
  | plain o => [("opcode", o.toJson)]
  | int o operand => [("opcode", o.toJson), ("operand", .int operand.toInt)]
  | ldc constant => [("constant", constant.toJson)]
  | slot o index => [("opcode", o.toJson), ("var", .nat index.toNat)]
  | jump o target => [("opcode", o.toJson), ("label", .nat target.toNat)]
  | field o owner name descriptor =>
    [("opcode", o.toJson), ("owner", .text owner), ("name", .text name),
     ("descriptor", .text descriptor)]
  | method call =>
    [("opcode", call.opcode.toJson), ("owner", .text call.owner), ("name", .text call.name),
     ("descriptor", .text call.descriptor), ("interface", .bool call.onInterface)]
  | type o className => [("opcode", o.toJson), ("class", .text className)]
  | label id => [("id", .nat id.toNat)]
  | line number start => [("line", .nat number.toNat), ("start", .nat start.toNat)]

def Instruction.toJson (i : Instruction) : Json :=
  .record (("kind", .text i.kind) :: i.members)

def Method.toJson (m : Method) : Json :=
  .record
    [("name", .text m.location.method), ("descriptor", .text m.location.descriptor),
     ("instructions", .list (m.instructions.map Instruction.toJson))]

def ClassTree.toJson (c : ClassTree) : Json :=
  .record [("name", .text c.name), ("methods", .list (c.methods.map Method.toJson))]

def Location.toJson (l : Location) : Json :=
  .record
    [("class", .text l.class), ("method", .text l.method), ("descriptor", .text l.descriptor)]

def optionalMember {α : Type} (name : String) (write : α → Json) :
    Option α → List (String × Json)
  | none => []
  | some a => [(name, write a)]

def Mutation.toJson (m : Mutation) : Json :=
  .record
    ([("location", m.id.location.toJson), ("index", .nat m.id.index.toNat),
      ("mutator", .text m.id.mutator.uniqueId), ("description", .text m.description)] ++
      optionalMember "filename" .text m.filename ++
      optionalMember "line" (fun line => .nat line.toNat) m.line)

end MutantSieve
