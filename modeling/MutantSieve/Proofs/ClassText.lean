import MutantSieve.Json.Encode
import MutantSieve.Proofs.ClassBuilding
import MutantSieve.Proofs.Decode

/-!
# Classes and their texts

An instruction is written under the name of its kind with the fields that kinds of this name are
read by, so each kind is read back as it was written. A method leaves its class to the class it is
written in, and the class checks its methods anew when it is read; since it has passed the checks
before, it is built as it was.
-/

set_option autoImplicit false

namespace MutantSieve

theorem Opcode.parse_mnemonic (o : Opcode) : Opcode.parse? o.mnemonic = some o := by
  have listed : ∀ o ∈ Opcode.all, Opcode.parse? o.mnemonic = some o := by decide +kernel
  exact listed o (by cases o <;> decide)

section Exact

def Constant.Exact : Constant → Prop
  | .float _ | .double _ => False
  | .int _ | .long _ | .string _ | .class _ => True

def Instruction.Exact : Instruction → Prop
  | .ldc k => k.Exact
  | _ => True

def Method.Exact (m : Method) : Prop := ∀ i ∈ m.instructions, i.Exact

def ClassTree.Exact (c : ClassTree) : Prop := ∀ m ∈ c.methods, m.Exact

instance : DecidablePred Constant.Exact
  | .float _ | .double _ => isFalse id
  | .int _ | .long _ | .string _ | .class _ => isTrue trivial

instance : DecidablePred Instruction.Exact
  | .ldc k => inferInstanceAs (Decidable k.Exact)
  | .plain _ | .int .. | .slot .. | .jump .. | .field .. | .method _ | .type .. | .label _
  | .line .. => isTrue trivial

instance (m : Method) : Decidable m.Exact :=
  inferInstanceAs (Decidable (∀ i ∈ m.instructions, i.Exact))

instance (c : ClassTree) : Decidable c.Exact :=
  inferInstanceAs (Decidable (∀ m ∈ c.methods, m.Exact))

end Exact

def Method.declared (m : Method) : Decode.Declaration :=
  ⟨m.location.method, m.location.descriptor, m.instructions⟩

theorem Method.located_declared {m : Method} {name : String} (own : m.location.class = name) :
    m.declared.located name = m := by
  subst own
  rfl

section Readable

open Json

variable {depth : Nat}

theorem Constant.readable {k : Constant} (shallow : depth < 127) (h : k.Exact) :
    Readable depth k.toJson := by
  cases k with
  | int value => simpa [toJson, Readable, MembersReadable, shallow] using Data.inRange_int32 value
  | long value => simpa [toJson, Readable, MembersReadable, shallow] using Data.inRange_int64 value
  | float value => exact h.elim
  | double value => exact h.elim
  | string value => simpa [toJson, Readable, MembersReadable] using shallow
  | «class» name => simpa [toJson, Readable, MembersReadable] using shallow

theorem Instruction.readable {i : Instruction} (shallow : depth < 126) (h : i.Exact) :
    Readable depth i.toJson := by
  have behind : MembersReadable (depth + 1) i.members := by
    cases i with
    | int o operand =>
      simpa [members, MembersReadable, Opcode.toJson, Readable] using Data.inRange_int32 operand
    | ldc k => simpa [members, MembersReadable] using Constant.readable (by omega) h
    | slot o index =>
      simpa [members, MembersReadable, Opcode.toJson, Readable, nat] using Data.inRange_word16 index
    | jump o target =>
      simpa [members, MembersReadable, Opcode.toJson, Readable, nat] using
        Data.inRange_word32 target
    | label id =>
      simpa [members, MembersReadable, Opcode.toJson, Readable, nat] using Data.inRange_word32 id
    | line number start =>
      simpa [members, MembersReadable, Opcode.toJson, Readable, nat] using
        And.intro (Data.inRange_word32 number) (Data.inRange_word32 start)
    | plain o | field o owner name descriptor | method call | type o name =>
      simp [members, MembersReadable, Opcode.toJson, Readable]
  rw [toJson, Readable, MembersReadable]
  exact ⟨by omega, trivial, behind⟩

theorem Method.readable {m : Method} (shallow : depth < 124) (h : m.Exact) :
    Readable depth m.toJson := by
  have body : Readable (depth + 1) (.list (m.instructions.map Instruction.toJson)) :=
    readable_map (by omega) fun i hi => Instruction.readable (by omega) (h i hi)
  rw [toJson, Readable]
  exact ⟨by omega, trivial, trivial, body, trivial⟩

theorem ClassTree.readable {c : ClassTree} (h : c.Exact) : Readable 0 c.toJson := by
  have methods : Readable 1 (.list (c.methods.map Method.toJson)) :=
    readable_map (by decide) fun m hm => Method.readable (by decide) (h m hm)
  rw [toJson, Readable]
  exact ⟨by decide, trivial, methods, trivial⟩

end Readable

namespace Decode

variable {dialect : Dialect}

theorem opcode_toJson (o : Opcode) : opcode o.toJson.data = .ok o := by
  have read : text o.toJson.data = .ok o.mnemonic := rfl
  rw [opcode, read]
  simp only [o.parse_mnemonic]

section Constants

theorem constant_of_type {name : String} {decode : Data → Decoded Constant} {j : Json}
    {k : Constant} (listed : constantTypes.lookup name = some decode)
    (read : decode j.data = .ok k) :
    constant dialect (Json.record [("type", .text name), ("value", j)]).data = .ok k := by
  have type : memberType (Json.text name).data = .ok decode := by
    show present (constantTypes.lookup name) = .ok decode
    rw [listed]
    rfl
  have fields : record ConstantFields.step {}
      (Json.membersData [("type", .text name), ("value", j)]) true =
      .ok ⟨some decode, some j.data⟩ :=
    record_closed (members_fill rfl type (members_fill rfl rfl rfl))
  simp only [Json.data, constant, fields]
  exact read

theorem constant_toJson {k : Constant} (h : k.Exact) :
    constant dialect k.toJson.data = .ok k := by
  cases k with
  | int value => exact constant_of_type rfl (congrArg (Except.map _) (int32_int value))
  | long value => exact constant_of_type rfl (congrArg (Except.map _) (int64_int value))
  | float value => exact h.elim
  | double value => exact h.elim
  | string value => exact constant_of_type rfl rfl
  | «class» name => exact constant_of_type rfl rfl

end Constants

section Instructions

theorem fieldNames_kind (i : Instruction) : fieldNames i.kind = some (i.members.map Prod.fst) := by
  cases i <;> rfl

theorem kindOf_members (i : Instruction) :
    kindOf (Json.membersData (("kind", .text i.kind) :: i.members)) = some i.kind := by
  cases i <;> rfl

theorem members_own (i : Instruction) :
    ((Json.membersData (("kind", .text i.kind) :: i.members)).filter fun m =>
      m.1.any fun name => (i.members.map Prod.fst).contains name) =
      Json.membersData i.members := by
  cases i <;> rfl

theorem build_members (dialect : Dialect) {i : Instruction} (h : i.Exact) :
    ∃ f : InstructionFields,
      members (InstructionFields.take dialect) {} (Json.membersData i.members) = .ok f ∧
      f.build i.kind = some i := by
  cases i with
  | plain o => exact ⟨_, members_fill rfl (opcode_toJson o) rfl, rfl⟩
  | int o operand =>
    exact ⟨_, members_fill rfl (opcode_toJson o) (members_fill rfl (int32_int operand) rfl), rfl⟩
  | ldc k => exact ⟨_, members_fill rfl (constant_toJson h) rfl, rfl⟩
  | slot o index =>
    exact ⟨_, members_fill rfl (opcode_toJson o) (members_fill rfl (word16_nat index) rfl), rfl⟩
  | jump o target =>
    exact ⟨_, members_fill rfl (opcode_toJson o) (members_fill rfl (word32_nat target) rfl), rfl⟩
  | field o owner name descriptor =>
    exact ⟨_, members_fill rfl (opcode_toJson o) <| members_fill rfl (text_text owner) <|
      members_fill rfl (text_text name) <| members_fill rfl (text_text descriptor) rfl, rfl⟩
  | method call =>
    exact ⟨_, members_fill rfl (opcode_toJson call.opcode) <|
      members_fill rfl (text_text call.owner) <| members_fill rfl (text_text call.name) <|
      members_fill rfl (text_text call.descriptor) <|
      members_fill rfl (bool_bool call.onInterface) rfl, rfl⟩
  | type o name =>
    exact ⟨_, members_fill rfl (opcode_toJson o) (members_fill rfl (text_text name) rfl), rfl⟩
  | label id => exact ⟨_, members_fill rfl (word32_nat id) rfl, rfl⟩
  | line number start =>
    exact ⟨_, members_fill rfl (word32_nat number) (members_fill rfl (word32_nat start) rfl), rfl⟩

theorem instruction_toJson {i : Instruction} (h : i.Exact) :
    instruction dialect i.toJson.data = .ok i := by
  -- The kind may stand anywhere, so all members have to be readable before any is judged.
  have clean := Json.data_clean i.toJson (Instruction.readable (show 0 < 126 by decide) h)
  obtain ⟨f, taken, built⟩ := build_members dialect h
  have whole : i.toJson.data =
      .record (Json.membersData (("kind", .text i.kind) :: i.members)) true := rfl
  rw [whole] at clean ⊢
  simp only [instruction, clean, kindOf_members, fieldNames_kind, members_own, taken, built,
    present, bind, Except.bind, Bool.not_true, Bool.false_eq_true, if_false]

end Instructions

section Classes

theorem declaration_toJson {m : Method} (h : m.Exact) :
    declaration dialect m.toJson.data = .ok m.declared := by
  have body : list (instruction dialect) (Json.list (m.instructions.map Instruction.toJson)).data =
      .ok (m.instructions.map id) := list_map fun i hi => instruction_toJson (h i hi)
  rw [List.map_id] at body
  have fields : record (MethodFields.step dialect) {}
      (Json.membersData [("name", .text m.location.method),
        ("descriptor", .text m.location.descriptor),
        ("instructions", .list (m.instructions.map Instruction.toJson))]) true =
      .ok ⟨some m.location.method, some m.location.descriptor, some m.instructions⟩ :=
    record_closed <| members_fill rfl (text_text _) <| members_fill rfl (text_text _) <|
      members_fill rfl body rfl
  simp only [Method.toJson, Json.data, declaration, fields]
  rfl

theorem classForm_toJson {c : ClassTree} (h : c.Exact) :
    classForm dialect c.toJson.data = .ok ⟨c.name, c.methods.map Method.declared⟩ := by
  have methods : list (declaration dialect) (Json.list (c.methods.map Method.toJson)).data =
      .ok (c.methods.map Method.declared) := list_map fun m hm => declaration_toJson (h m hm)
  have fields : record (ClassFields.step dialect) {}
      (Json.membersData [("name", .text c.name),
        ("methods", .list (c.methods.map Method.toJson))]) true =
      .ok ⟨some c.name, some (c.methods.map Method.declared)⟩ :=
    record_closed <| members_fill rfl (text_text _) <| members_fill rfl methods rfl
  simp only [ClassTree.toJson, Json.data, classForm, fields]
  rfl

theorem located_declared (c : ClassTree) :
    ClassForm.located ⟨c.name, c.methods.map Method.declared⟩ = c.methods := by
  have back : ∀ m ∈ c.methods, m.declared.located c.name = m := fun m hm =>
    Method.located_declared (c.method_sound hm).own
  rw [ClassForm.located, List.map_map]
  exact (List.map_congr_left back).trans (List.map_id' c.methods)

theorem classTree_toJson {c : ClassTree} (h : c.Exact) :
    classTree dialect c.toJson.data = .ok c := by
  have built : ClassTree.new c.name c.methods = .ok c := ClassTree.new_eq_ok_iff.mpr ⟨rfl, rfl⟩
  rw [classTree, classForm_toJson h]
  simp only [located_declared, built]
  rfl

end Classes

end Decode

/-- A class without floating point numbers is read from its compact text as it was written: it has
the same methods in the same order, the same index, and the same text again. -/
theorem ClassTree.read_compactText {c : ClassTree} (h : c.Exact) :
    Decode.json (Decode.classTree .json) c.toJson.compactText.toList = .ok c := by
  rw [Json.compactText, String.toList_ofList, Decode.json_compact _ (readable h),
    Decode.classTree_toJson h]

def variedMethod : Method :=
  ⟨⟨"com/example/\"Quoted\"", "run", "(I[Ljava/lang/String;)V"⟩,
   [.label 0, .line 4294967295 0, .int .bipush (-128), .slot .iload 65535,
    .ldc (.int (-2147483648)), .ldc (.long (-9223372036854775808)),
    .ldc (.string "line\n\ttab \\ \" \x01 ü 😀"), .ldc (.class "[I"),
    .field .getstatic "java/lang/System" "out" "Ljava/io/PrintStream;",
    .interfaceCall "java/util/List" "size" "()I",
    .virtualCall "java/lang/Object" "hashCode" "()I",
    .type .new "java/lang/Object", .jump .goto 0, .plain .ireturn]⟩

def bareMethod : Method := ⟨⟨"com/example/\"Quoted\"", "run", "()V"⟩, []⟩

def variedClass : ClassTree :=
  ⟨"com/example/\"Quoted\"", [variedMethod, bareMethod],
   [(bareMethod.location, 1), (variedMethod.location, 0)], by decide +kernel⟩

theorem variedClass_read : variedClass.Exact ∧
    Decode.json (Decode.classTree .json) variedClass.toJson.compactText.toList = .ok variedClass :=
  have h : variedClass.Exact := by decide
  ⟨h, ClassTree.read_compactText h⟩

end MutantSieve
