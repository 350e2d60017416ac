import MutantSieve.Proofs.FloatConstants

/-!
# Floating point constants and their texts

A finite single is read back from its text, and one that became infinite when it was rounded is
written as `null`, which is refused. So a class is read back from its text just when its singles are
finite and its doubles are read back from theirs.
-/

set_option autoImplicit false

namespace MutantSieve

open Binary Json

section Datum

variable {depth : Nat}

def Constant.datum (k : Constant) : Data := (Json.read k.toJson.compact).1

theorem datum_of_writes {k : Constant} {d : Data} (h : Writes 0 k.toJson d) : k.datum = d := by
  rw [Constant.datum, h.read]

theorem exists_value (name : String) (f : Format) (x : Binary) :
    ∃ d, (∀ depth < 127, Writes depth (.record [("type", .text name), ("value", .float f x)])
        (.record [(some "type", .text (some name)), (some "value", d)] true)) ∧
      if x.isFinite then ∃ n : Number, n.text = f.json x ∧ d = .number n.parts.value
      else d = .null := by
  obtain ⟨d, writes, shape⟩ := exists_float f x
  refine ⟨d, fun depth shallow => writes_record shallow ?_, shape⟩
  exact .cons ⟨rfl, writes_readable trivial⟩ (.cons ⟨rfl, writes _⟩ .nil)

theorem Constant.exists_datum (k : Constant) : ∃ d, ∀ depth < 127, Writes depth k.toJson d := by
  cases k with
  | float x =>
    obtain ⟨d, writes, -⟩ := exists_value "float" single x
    exact ⟨_, writes⟩
  | double x =>
    obtain ⟨d, writes, -⟩ := exists_value "double" Binary.double x
    exact ⟨_, writes⟩
  | int n => exact ⟨_, fun depth shallow => writes_readable (readable shallow trivial)⟩
  | long n => exact ⟨_, fun depth shallow => writes_readable (readable shallow trivial)⟩
  | string s => exact ⟨_, fun depth shallow => writes_readable (readable shallow trivial)⟩
  | «class» name => exact ⟨_, fun depth shallow => writes_readable (readable shallow trivial)⟩

theorem Constant.writes_datum (k : Constant) (shallow : depth < 127) :
    Writes depth k.toJson k.datum := by
  obtain ⟨d, writes⟩ := k.exists_datum
  rw [datum_of_writes (writes 0 (by decide))]
  exact writes depth shallow

def Instruction.datum : Instruction → Data
  | .ldc k => .record [(some "kind", .text (some "ldc")), (some "constant", k.datum)] true
  | i => i.toJson.data

theorem Instruction.writes_datum (i : Instruction) (shallow : depth < 126) :
    Writes depth i.toJson i.datum := by
  cases i with
  | ldc k =>
    apply writes_record (by omega)
    exact .cons ⟨rfl, writes_readable trivial⟩ (.cons ⟨rfl, k.writes_datum (by omega)⟩ .nil)
  | _ => exact writes_readable (readable shallow trivial)

def Method.datum (m : Method) : Data :=
  .record [(some "name", .text (some m.location.method)),
    (some "descriptor", .text (some m.location.descriptor)),
    (some "instructions", .list (m.instructions.map Instruction.datum) true)] true

theorem Method.writes_datum (m : Method) (shallow : depth < 124) :
    Writes depth m.toJson m.datum := by
  have body : Writes (depth + 1) (.list (m.instructions.map Instruction.toJson))
      (.list (m.instructions.map Instruction.datum) true) :=
    writes_map (by omega) fun i _ => i.writes_datum (by omega)
  apply writes_record (by omega)
  exact .cons ⟨rfl, writes_readable trivial⟩ (.cons ⟨rfl, writes_readable trivial⟩
    (.cons ⟨rfl, body⟩ .nil))

def ClassTree.datum (c : ClassTree) : Data :=
  .record [(some "name", .text (some c.name)),
    (some "methods", .list (c.methods.map Method.datum) true)] true

theorem ClassTree.writes_datum (c : ClassTree) : Writes 0 c.toJson c.datum := by
  have methods : Writes 1 (.list (c.methods.map Method.toJson))
      (.list (c.methods.map Method.datum) true) :=
    writes_map (by decide) fun m _ => m.writes_datum (by decide)
  apply writes_record (by decide)
  exact .cons ⟨rfl, writes_readable trivial⟩ (.cons ⟨rfl, methods⟩ .nil)

end Datum

namespace Decode

variable {dialect : Dialect}

section Constants

theorem constant_of_value {name : String} {decode : Data → Decoded Constant} {d : Data}
    (listed : constantTypes.lookup name = some decode) :
    constant dialect (.record [(some "type", .text (some name)), (some "value", d)] true) =
      decode d := by
  have type : memberType (.text (some name)) = .ok decode := by
    show present (constantTypes.lookup name) = .ok decode
    rw [listed]
    rfl
  have fields : record ConstantFields.step {}
      [(some "type", .text (some name)), (some "value", d)] true = .ok ⟨some decode, some d⟩ :=
    record_closed (members_fill rfl type (members_fill rfl rfl rfl))
  simp only [constant, fields]
  rfl

theorem number_unique {n k : Number} (same : n.text = k.text) : n.parts = k.parts := by
  have left := readNumber_text n endsNumber_nil
  have right := readNumber_text k endsNumber_nil
  rw [same, right] at left
  exact (Prod.mk.inj (Option.some.inj left)).1.symm

theorem constant_single {x : Binary} (belongs : x.Belongs single) :
    constant dialect (Constant.float x).datum =
        (if x.isFinite then .ok (.float x) else .error .malformed) ∧
      (Constant.float x).datum.clean = true := by
  obtain ⟨d, writes, shape⟩ := exists_value "float" single x
  rw [datum_of_writes (k := .float x) (writes 0 (by decide)), constant_of_value rfl]
  cases x with
  | finite negative m q =>
    obtain ⟨n, text, rfl⟩ := shape
    obtain ⟨k, text', y, value, back⟩ := exists_single belongs
    have parts := number_unique (text.trans text'.symm)
    rw [parts, value]
    exact ⟨by rw [float, back]; rfl, rfl⟩
  | infinite negative =>
    obtain rfl := shape
    exact ⟨rfl, rfl⟩
  | undefined =>
    obtain rfl := shape
    exact ⟨rfl, rfl⟩

theorem clean_of_float {f : Format} {d : Data} {x : Binary} (h : float f d = .ok x) :
    d.clean = true := by
  unfold float at h
  split at h
  · split at h
    · assumption
    · cases h
  · rfl
  · cases h

theorem clean_of_constant {k k' : Constant} (h : constant dialect k.datum = .ok k') :
    k.datum.clean = true := by
  have exact : ∀ k : Constant, k.Exact → k.datum.clean = true := by
    intro k exact
    have readable : Readable 0 k.toJson := Constant.readable (by decide) exact
    rw [datum_of_writes (writes_readable readable)]
    exact data_clean _ readable
  have of_value : ∀ (name : String) (f : Format) (x : Binary) (make : Binary → Constant) (d : Data),
      constantTypes.lookup name = some (fun d => (float f d).map make) →
      constant dialect (.record [(some "type", .text (some name)), (some "value", d)] true) =
        .ok k' →
      (Data.record [(some "type", .text (some name)), (some "value", d)] true).clean = true := by
    intro name f x make d listed decoded
    rw [constant_of_value listed] at decoded
    obtain ⟨y, read, -⟩ := of_map decoded
    simp [Data.clean, Data.membersClean, clean_of_float read]
  cases k with
  | float x =>
    obtain ⟨d, writes, -⟩ := exists_value "float" single x
    rw [datum_of_writes (k := .float x) (writes 0 (by decide))] at h ⊢
    exact of_value "float" single x .float d rfl h
  | double x =>
    obtain ⟨d, writes, -⟩ := exists_value "double" Binary.double x
    rw [datum_of_writes (k := .double x) (writes 0 (by decide))] at h ⊢
    exact of_value "double" Binary.double x .double d rfl h
  | int n => exact exact _ trivial
  | long n => exact exact _ trivial
  | string s => exact exact _ trivial
  | «class» name => exact exact _ trivial

end Constants

section Classes

theorem instruction_ldc {k : Constant} (clean : k.datum.clean = true) :
    instruction dialect (Instruction.ldc k).datum = (constant dialect k.datum).map .ldc := by
  have usable : (Instruction.ldc k).datum.clean = true := by
    simp [Instruction.datum, Data.clean, Data.membersClean, clean]
  have kind : kindOf [(some "kind", .text (some "ldc")), (some "constant", k.datum)] =
      some "ldc" := rfl
  have own : ([(some "kind", .text (some "ldc")), (some "constant", k.datum)].filter fun m =>
      m.1.any fun name => ["constant"].contains name) = [(some "constant", k.datum)] := rfl
  rw [Instruction.datum] at usable ⊢
  simp only [instruction, usable, kind, own, fieldNames, present, bind, Except.bind, Bool.not_true,
    Bool.false_eq_true, if_false, members, InstructionFields.take, fill]
  cases constant dialect k.datum <;> rfl

theorem instruction_ldc_iff {k : Constant} :
    instruction dialect (Instruction.ldc k).datum = .ok (.ldc k) ↔
      constant dialect k.datum = .ok k := by
  by_cases clean : k.datum.clean = true
  · rw [instruction_ldc clean]
    cases constant dialect k.datum <;> simp [Except.map]
  · refine iff_of_false (fun decoded => ?_) fun read => clean (clean_of_constant read)
    have unusable : (Instruction.ldc k).datum.clean = false := by
      simp [Instruction.datum, Data.clean, Data.membersClean, clean]
    unfold instruction at decoded
    simp [unusable] at decoded

theorem instruction_datum_iff {i : Instruction} :
    instruction dialect i.datum = .ok i ↔
      ∀ k, i = .ldc k → constant dialect k.datum = .ok k := by
  cases i with
  | ldc k =>
    rw [instruction_ldc_iff]
    exact ⟨fun read k' same => by cases same; exact read, fun h => h k rfl⟩
  | _ => exact iff_of_true (instruction_toJson trivial) fun k same => by cases same

theorem list_datum_iff {α : Type} {decode : Data → Decoded α} {datum : α → Data} {as : List α} :
    list decode (.list (as.map datum) true) = .ok as ↔ ∀ a ∈ as, decode (datum a) = .ok a := by
  have complete : list decode (.list (as.map datum) true) = items decode (as.map datum) := by
    rw [list]
    cases items decode (as.map datum) <;> rfl
  rw [complete, items_eq_ok_iff, List.forall₂_map_left_iff, List.forall₂_same]

theorem declaration_datum (m : Method) :
    declaration dialect m.datum =
      (list (instruction dialect) (.list (m.instructions.map Instruction.datum) true)).map
        fun is => ⟨m.location.method, m.location.descriptor, is⟩ := by
  simp only [declaration, Method.datum, record, members, MethodFields.step, text, fill, Except.map,
    bind, Except.bind, pure, Except.pure]
  cases list (instruction dialect) (.list (m.instructions.map Instruction.datum) true) <;> rfl

theorem classForm_datum (c : ClassTree) :
    classForm dialect c.datum =
      (list (declaration dialect) (.list (c.methods.map Method.datum) true)).map
        fun ms => ⟨c.name, ms⟩ := by
  simp only [classForm, ClassTree.datum, record, members, ClassFields.step, text, fill, Except.map,
    bind, Except.bind, pure, Except.pure]
  cases list (declaration dialect) (.list (c.methods.map Method.datum) true) <;> rfl

theorem declaration_datum_iff {m : Method} :
    declaration dialect m.datum = .ok m.declared ↔
      ∀ i ∈ m.instructions, instruction dialect i.datum = .ok i := by
  rw [declaration_datum, ← list_datum_iff]
  cases list (instruction dialect) (.list (m.instructions.map Instruction.datum) true) <;>
    simp [Except.map, Method.declared]

theorem classTree_datum_iff {c : ClassTree} :
    classTree dialect c.datum = .ok c ↔
      ∀ m ∈ c.methods, ∀ i ∈ m.instructions, instruction dialect i.datum = .ok i := by
  have methods : (∀ m ∈ c.methods, declaration dialect m.datum = .ok m.declared) ↔
      ∀ m ∈ c.methods, ∀ i ∈ m.instructions, instruction dialect i.datum = .ok i :=
    forall₂_congr fun m _ => declaration_datum_iff
  rw [← methods, classTree, classForm_datum]
  constructor
  · intro built m inside
    cases read : list (declaration dialect) (.list (c.methods.map Method.datum) true) with
    | error e =>
      rw [read] at built
      cases built
    | ok ds =>
      rw [read] at built
      simp only [Except.map] at built
      have same : c.methods = ClassForm.located ⟨c.name, ds⟩ := by
        cases tree : ClassTree.new c.name (ClassForm.located ⟨c.name, ds⟩) with
        | error e =>
          rw [tree] at built
          cases built
        | ok c' =>
          rw [tree] at built
          cases built
          exact (ClassTree.new_eq_ok_iff.mp tree).2
      -- Each declaration was read from the method that it makes.
      obtain ⟨ds', shape, each⟩ := of_list read
      cases shape
      rw [same, ClassForm.located, List.map_map, List.forall₂_map_left_iff, List.forall₂_same]
        at each
      rw [same, ClassForm.located] at inside
      obtain ⟨d, listed, rfl⟩ := List.mem_map.mp inside
      exact each d listed
  · intro each
    have read : list (declaration dialect) (.list (c.methods.map Method.datum) true) =
        .ok (c.methods.map Method.declared) := by
      have complete : List.Forall₂ (fun d a => declaration dialect d = .ok a)
          (c.methods.map Method.datum) (c.methods.map Method.declared) := by
        rw [List.forall₂_map_left_iff, List.forall₂_map_right_iff, List.forall₂_same]
        exact each
      rw [list, items_eq_ok_iff.mpr complete]
      rfl
    have built : ClassTree.new c.name c.methods = .ok c := ClassTree.new_eq_ok_iff.mpr ⟨rfl, rfl⟩
    rw [read]
    simp only [Except.map, located_declared, built]
    rfl

end Classes

end Decode

def Constant.Restored (k : Constant) : Prop :=
  Decode.json (Decode.constant .json) k.toJson.compactText.toList = .ok k

/-- What the text of a constant has to give for its class to be read back: a single has to be
finite, a double has to be read back, and the others always are. -/
def Constant.Kept : Constant → Prop
  | .float x => x.isFinite = true
  | .double x => (Constant.double x).Restored
  | _ => True

theorem Constant.restored_iff_datum {k : Constant} :
    k.Restored ↔ Decode.constant .json k.datum = .ok k := by
  rw [Restored, (k.writes_datum (by decide)).decode]

theorem Constant.restored_of_exact {k : Constant} (h : k.Exact) : k.Restored := by
  rw [Restored, compactText, String.toList_ofList, Decode.json_compact _ (readable (by decide) h),
    Decode.constant_toJson h]

theorem Constant.restored_iff_kept {k : Constant} (belongs : k.Belongs) : k.Restored ↔ k.Kept := by
  cases k with
  | float x =>
    rw [restored_iff_datum, (Decode.constant_single belongs).1, Kept]
    cases x.isFinite <;> simp
  | double x => exact Iff.rfl
  | _ => exact iff_of_true (restored_of_exact trivial) trivial

def Numeral.Sized : Numeral → ℚ → Prop
  | .integer i, v => v = |(i : ℚ)|
  | .float x, v => ∃ negative, Measures x negative v
  | .huge, _ => False

theorem isFinite_rounds {negative : Bool} {v : ℚ} {y : Binary} (rounds : Rounds single negative v y)
    (least : 0 ≤ v) : y.isFinite = true ↔ v < (2 ^ 25 - 1) * 2 ^ (103 : Int) := by
  rcases lt_or_eq_of_le least with positive | rfl
  · rw [rounds.isFinite_iff (by decide) (by decide) positive]
    norm_num [single, Format.limit]
  · obtain ⟨num, den, below, zero, rfl⟩ := rounds
    have width : (den : ℚ) ≠ 0 := by exact_mod_cast below.ne'
    have zero : num = 0 := by
      have zero := (div_eq_zero_iff.mp zero).resolve_right width
      exact_mod_cast zero
    rw [Format.round, if_pos zero]
    exact iff_of_true rfl (by norm_num)

theorem isFinite_float {n : Numeral} {v : ℚ} {x : Binary}
    (read : Decode.float single (.number n) = .ok x) (sized : n.Sized v) :
    x.isFinite = true ↔ v < (2 ^ 25 - 1) * 2 ^ (103 : Int) := by
  cases n with
  | integer i =>
    obtain rfl := sized
    rw [Decode.float] at read
    split at read
    · cases read
      have rounds := rounds_nat single (decide (i < 0)) i.natAbs
      rw [Nat.cast_natAbs, Int.cast_abs] at rounds
      exact isFinite_rounds rounds (abs_nonneg _)
    · cases read
  | float y =>
    obtain ⟨negative, m, q, rfl, rfl⟩ := sized
    cases read
    exact isFinite_rounds (rounds_convert single ⟨m, q, rfl, rfl⟩)
      (mul_nonneg (Nat.cast_nonneg m) (two_zpow_pos q).le)
  | huge => exact sized.elim

/-- A single that was loaded is read back from the text of its instruction if it is finite, and else
that text is refused. It is finite just when the number that was rounded is below the middle between
the largest single and the first power of two beyond. A class that was loaded is read back from its
text just when every single in it is finite and every double in it is read back from its own text.
-/
theorem floats_restored (dialect : Decode.Dialect) :
    (∀ d x, Decode.instruction dialect d = .ok (.ldc (.float x)) →
      Decode.json (Decode.instruction .json)
          (Instruction.ldc (.float x)).toJson.compactText.toList =
        if x.isFinite then .ok (.ldc (.float x)) else .error .malformed) ∧
    (∀ n v x, Numeral.Sized n v → Decode.float single (.number n) = .ok x →
      (x.isFinite = true ↔ v < (2 ^ 25 - 1) * 2 ^ (103 : Int))) ∧
    ∀ d c, Decode.classTree dialect d = .ok c →
      (Decode.json (Decode.classTree .json) c.toJson.compactText.toList = .ok c ↔
        ∀ m ∈ c.methods, ∀ k, .ldc k ∈ m.instructions → k.Kept) := by
  refine ⟨fun d x decoded => ?_, fun n v x sized read => isFinite_float read sized,
    fun d c decoded => ?_⟩
  · have belongs : x.Belongs single := Decode.yields_instruction d _ decoded
    obtain ⟨read, clean⟩ : Decode.constant .json (Constant.float x).datum = _ ∧ _ :=
      Decode.constant_single belongs
    rw [((Instruction.ldc (.float x)).writes_datum (by decide)).decode,
      Decode.instruction_ldc clean, read]
    cases x.isFinite <;> rfl
  · have belongs := Decode.yields_classTree d c decoded
    rw [c.writes_datum.decode, Decode.classTree_datum_iff]
    apply forall₂_congr
    intro m inside
    constructor
    · intro each k listed
      have read := Decode.instruction_datum_iff.mp (each _ listed) k rfl
      exact (Constant.restored_iff_kept (belongs m inside _ listed)).mp
        (Constant.restored_iff_datum.mpr read)
    · intro kept i listed
      rw [Decode.instruction_datum_iff]
      rintro k rfl
      exact Constant.restored_iff_datum.mp
        ((Constant.restored_iff_kept (belongs m inside _ listed)).mpr (kept k listed))

def singleText (value : String) : List Char :=
  ("\x7b\"kind\":\"ldc\",\"constant\":\x7b\"type\":\"float\",\"value\":" ++ value ++
    "\x7d\x7d").toList

/-- A tenth is no single, and the single next to it is read back. -/
theorem tenth_restored :
    Decode.instruction .json (Json.read (singleText "0.1")).1 =
        .ok (.ldc (.float (.finite false 13421773 (-27)))) ∧
      Decode.json (Decode.instruction .json)
        (Instruction.ldc (.float (.finite false 13421773 (-27)))).toJson.compactText.toList =
        .ok (.ldc (.float (.finite false 13421773 (-27)))) :=
  have read : Decode.instruction .json (Json.read (singleText "0.1")).1 =
      .ok (.ldc (.float (.finite false 13421773 (-27)))) := by decide +kernel
  ⟨read, (floats_restored .json).1 _ _ read⟩

/-- A number beyond the singles is accepted, but what it became is refused. -/
theorem beyond_singles_lost :
    Decode.json (Decode.instruction .json) (singleText "3.5e38") =
        .ok (.ldc (.float (.infinite false))) ∧
      Decode.json (Decode.instruction .json)
        (Instruction.ldc (.float (.infinite false))).toJson.compactText.toList =
        .error .malformed := by
  decide +kernel

end MutantSieve
