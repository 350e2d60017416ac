import MutantSieve.Proofs.Blank
import MutantSieve.Proofs.Json.Grammar
import MutantSieve.Proofs.UnitFile

/-!
# Two shapes of one list of units

The units of a JSON text stand in an array, which is the whole text or a member of an object. What
other members the object has and which blanks stand where makes no difference: the array gives the
same units. In the object it is nested once more, so its depth is limited by one less there; where
that is too much for one of its values, the object may be refused, but it never gives other units.

The texts are those of the grammar, and these are all that are read to their end.
-/

set_option autoImplicit false

namespace MutantSieve

namespace Json

/-- A member under another name. A name has to be a text; half of a surrogate pair is none. -/
def Member.Other (name : String) : Member → Prop
  | ⟨_, spelling, _, _⟩ => ∃ other, spelling.content = some other ∧ other ≠ name

structure UnitObject where
  front : List Member
  before : Gap
  name : Literal
  between : Gap
  margin : Gap
  after : Gap
  behind : List Member
  named : name.content = some "units"
  others : ∀ m ∈ front ++ behind, m.Other "units"

def UnitObject.around (o : UnitObject) (array : Script) : Script :=
  .record .none
    (o.front ++ ⟨o.before, o.name, o.between, ⟨o.margin, array, o.after⟩⟩ :: o.behind)

def Script.source (v : Script) : String := String.ofList v.text

def Element.source (e : Element) : String := String.ofList e.text

theorem Gap.allBlank (gap : Gap) : Text.AllBlank gap.blanks := by
  intro c inside
  rcases isBlank_iff.mp (gap.blank c inside) with rfl | rfl | rfl | rfl <;> decide

theorem text_isBlank_digit {c : Char} (digit : Text.isDigit c = true) : Text.isBlank c = false := by
  simp only [Text.isDigit, Bool.and_eq_true, decide_eq_true_eq] at digit
  simp [Text.isBlank, Text.blankRanges]
  omega

def Script.isList : Script → Bool
  | .list .. => true
  | _ => false

theorem Script.text_first (v : Script) :
    ∃ c t, v.text = c :: t ∧ Text.isBlank c = false ∧ (c = '[' ↔ v.isList = true) := by
  cases v with
  | null => exact ⟨'n', _, rfl, by decide, by decide⟩
  | bool b =>
    cases b with
    | false => exact ⟨'f', _, rfl, by decide, by decide⟩
    | true => exact ⟨'t', _, rfl, by decide, by decide⟩
  | number n =>
    obtain ⟨c, t, first, number⟩ := number_text_head n
    obtain ⟨-, -, -, bracket, -⟩ := number_head number
    have visible : Text.isBlank c = false := by
      rcases number with digit | rfl
      · exact text_isBlank_digit digit
      · decide
    exact ⟨c, t, first, visible, by simp [bracket, Script.isList]⟩
  | string l => exact ⟨'"', _, rfl, by decide, by simp [Script.isList]⟩
  | list gap items => cases items <;> exact ⟨'[', _, rfl, by decide, by simp [Script.isList]⟩
  | record gap members => cases members <;> exact ⟨'{', _, rfl, by decide, by simp [Script.isList]⟩

theorem Script.membersData_append (depth : Nat) (front behind : List Member) :
    Script.membersData depth (front ++ behind) =
      Script.membersData depth front ++ Script.membersData depth behind := by
  induction front with
  | nil => rfl
  | cons m front ih => simp only [List.cons_append, Script.membersData, ih]

end Json

namespace Decode

section Whole

variable {α : Type}

theorem json_element (decode : Data → Decoded α) (e : Json.Element) :
    json decode e.text = decode (e.data 0) := by
  obtain ⟨rest, read, complete⟩ := e.read_text
  have finished : ∀ a : α, ended (Json.ends (some rest)) a = .ok a := fun _ => if_pos complete
  cases decoded : decode (e.data 0) <;> simp only [json, read, decoded, finished]

theorem jsonUnits_element (before after : Json.Gap) (v : Json.Script) :
    jsonUnits (Json.Element.mk before v after).text =
      if v.isList then list (classUnit .json) (v.data 0) else unitFile .json (v.data 0) := by
  obtain ⟨c, t, first, visible, bracket⟩ := v.text_first
  have start : (Text.trimStart (Json.Element.mk before v after).text).head? = some c := by
    rw [Json.Element.text, Text.trimStart, List.dropWhile_append_of_pos before.allBlank, first,
      List.cons_append, List.dropWhile_cons_of_neg (by simp [visible]), List.head?_cons]
  by_cases isList : v.isList = true
  · have peek : (Text.trimStart (Json.Element.mk before v after).text).head? = some '[' := by
      rw [start, bracket.mpr isList]
    rw [jsonUnits, if_pos peek, if_pos isList, json_element]
    rfl
  · have peek : (Text.trimStart (Json.Element.mk before v after).text).head? ≠ some '[' := by
      rw [start]
      exact fun same => isList (bracket.mp (Option.some.inj same))
    rw [jsonUnits, if_neg peek, if_neg isList, json_element]
    rfl

end Whole

section Members

theorem members_others (dialect : Dialect) (depth : Nat) {front : List Json.Member}
    (others : ∀ m ∈ front, m.Other "units") (units : Option (List ClassUnit))
    (rest : List (Option String × Data)) :
    members (unitsStep dialect) units (Json.Script.membersData depth front ++ rest) =
      members (unitsStep dialect) units rest := by
  induction front with
  | nil => rfl
  | cons m front ih =>
    obtain ⟨before, spelling, between, ⟨margin, v, after⟩⟩ := m
    obtain ⟨name, content, other⟩ := others _ List.mem_cons_self
    have passed : unitsStep dialect units name (v.data depth) = .ok units := by
      rw [unitsStep_other other, skip, if_pos (v.data_intact depth)]
    rw [Json.Script.membersData, Json.Member.data, content, List.cons_append, members]
    simp only [Json.Element.data, passed]
    exact ih fun m hm => others m (List.mem_cons_of_mem _ hm)

/-- An object gives what its array gives one level further in. -/
theorem unitFile_around {dialect : Dialect} (o : Json.UnitObject) (array : Json.Script) :
    unitFile dialect ((o.around array).data 0) = list (classUnit dialect) (array.data 1) := by
  have front : ∀ m ∈ o.front, m.Other "units" := fun m hm => o.others m (List.mem_append_left _ hm)
  have behind : ∀ m ∈ o.behind, m.Other "units" :=
    fun m hm => o.others m (List.mem_append_right _ hm)
  have shallow : (o.around array).data 0 = .record (Json.Script.membersData 1 o.front ++
      (some "units", array.data 1) :: Json.Script.membersData 1 o.behind) true := by
    rw [Json.UnitObject.around, Json.Script.data_record _ _ (by decide),
      Json.Script.membersData_append, Json.Script.membersData, Json.Member.data, o.named]
    rfl
  have taken : unitsStep dialect none "units" (array.data 1) =
      (list (classUnit dialect) (array.data 1)).map some := rfl
  rw [shallow, unitFile, record, members_others dialect 1 front, members, taken]
  cases list (classUnit dialect) (array.data 1) with
  | error e => rfl
  | ok units =>
    have last := members_others dialect 1 behind (some units) []
    rw [List.append_nil] at last
    simp only [Except.map, last]
    rfl

theorem unitFile_others {dialect : Dialect} {ms : List Json.Member}
    (others : ∀ m ∈ ms, m.Other "units") (gap : Json.Gap) :
    unitFile dialect ((Json.Script.record gap ms).data 0) = .ok [] := by
  have passed := members_others dialect 1 others none []
  rw [List.append_nil] at passed
  rw [Json.Script.data_record gap ms (by decide), unitFile, record, passed]
  rfl

end Members

section Steadiness

variable {α σ : Type} {dialect : Dialect}

def Steady (decode : Data → Decoded α) : Prop :=
  ∀ (v : Json.Script) (deep shallow : Nat), shallow ≤ deep → ∀ a,
    decode (v.data deep) = .ok a → decode (v.data shallow) = .ok a

theorem steady_of_clean {decode : Data → Decoded α}
    (clean : ∀ d a, decode d = .ok a → d.clean = true) : Steady decode := by
  intro v deep shallow h a decoded
  rwa [v.data_of_clean deep shallow h (clean _ _ decoded)]

theorem steady_text : Steady text := by
  apply steady_of_clean
  intro d a decoded
  unfold text at decoded
  split at decoded
  · rfl
  · cases decoded

theorem steady_of_test {decode : Data → Decoded α}
    (tests : ∀ d, d.clean = false → decode d = .error .malformed) : Steady decode := by
  apply steady_of_clean
  intro d a decoded
  cases clean : d.clean with
  | true => rfl
  | false =>
    rw [tests d clean] at decoded
    cases decoded

theorem steady_instruction : Steady (instruction dialect) :=
  steady_of_test fun _ unclean => if_pos (by rw [unclean]; rfl)

theorem steady_mutation : Steady mutation :=
  steady_of_test fun _ unclean => if_pos (by rw [unclean]; rfl)

theorem steady_skip (s : σ) : Steady (skip · s) := by
  intro v deep shallow _ t decoded
  show skip (v.data shallow) s = .ok t
  rw [of_skip decoded, skip, if_pos (v.data_intact shallow)]

theorem items_steady {decode : Data → Decoded α} (steady : Steady decode) {deep shallow : Nat}
    (h : shallow ≤ deep) {es : List Json.Element} {as : List α}
    (decoded : items decode (Json.Script.itemsData deep es) = .ok as) :
    items decode (Json.Script.itemsData shallow es) = .ok as := by
  rw [items_eq_ok_iff] at decoded ⊢
  induction es generalizing as with
  | nil => exact decoded
  | cons e es ih =>
    obtain ⟨before, v, after⟩ := e
    cases decoded with
    | cons first others => exact .cons (steady v deep shallow h _ first) (ih others)

theorem steady_list {decode : Data → Decoded α} (steady : Steady decode) :
    Steady (list decode) := by
  intro v deep shallow h as decoded
  obtain ⟨ds, isList, each⟩ := of_list decoded
  obtain ⟨inside, -, gap, es, rfl, rfl⟩ := Json.Script.of_data_list isList
  have further := items_steady steady (Nat.succ_le_succ h) (items_eq_ok_iff.mpr each)
  rw [Json.Script.data_list gap es (by omega), list, further]
  rfl

theorem steady_fill {decode : Data → Decoded α} (steady : Steady decode) (before : Option α)
    (put : Option α → σ) : Steady fun d => do return put (← fill decode d before) := by
  intro v deep shallow h s taken
  cases before with
  | some a => cases taken
  | none =>
    obtain ⟨a, read, rfl⟩ := filled taken
    simp only [fill, steady v deep shallow h a read]
    rfl

theorem members_steady {step : σ → String → Data → Decoded σ}
    (steady : ∀ s name, Steady (step s name)) {deep shallow : Nat} (h : shallow ≤ deep)
    {ms : List Json.Member} {s t : σ}
    (taken : members step s (Json.Script.membersData deep ms) = .ok t) :
    members step s (Json.Script.membersData shallow ms) = .ok t := by
  induction ms generalizing s with
  | nil => exact taken
  | cons m ms ih =>
    obtain ⟨before, spelling, between, ⟨margin, v, after⟩⟩ := m
    obtain ⟨name, s', named, first, others⟩ := of_members_cons taken
    have content : spelling.content = some name := named
    have further : step s name (v.data shallow) = .ok s' := steady s name v deep shallow h s' first
    rw [Json.Script.membersData, Json.Member.data, content, members]
    simp only [Json.Element.data, further]
    exact ih others

def SteadyRun (run : List Data → Decoded α) : Prop :=
  ∀ (es : List Json.Element) (deep shallow : Nat), shallow ≤ deep → ∀ a,
    run (Json.Script.itemsData deep es) = .ok a → run (Json.Script.itemsData shallow es) = .ok a

section Runs

variable {β : Type} {decode : Data → Decoded α} {more : α × List Data → Decoded β}

theorem steady_next (steady : Steady decode) (others : ∀ a, SteadyRun fun ds => more (a, ds)) :
    SteadyRun fun ds => next decode ds >>= more := by
  intro es deep shallow h b taken
  cases es with
  | nil => cases taken
  | cons e rest =>
    obtain ⟨before, v, after⟩ := e
    obtain ⟨x, first, second⟩ := of_bind taken
    obtain ⟨a, read, rfl⟩ := of_map first
    have further := others a rest deep shallow h b second
    simp only [Json.Script.itemsData, Json.Element.data, next, steady v deep shallow h a read]
    exact further

theorem steady_nextOr (default : α) (steady : Steady decode)
    (others : ∀ a, SteadyRun fun ds => more (a, ds)) :
    SteadyRun fun ds => nextOr default true decode ds >>= more := by
  intro es deep shallow h b taken
  cases es with
  | nil => exact others default [] deep shallow h b taken
  | cons e rest => exact steady_next steady others (e :: rest) deep shallow h b taken

theorem steady_finish (dialect : Dialect) (b : β) :
    SteadyRun fun ds => dialect.finish true ds >>= fun _ => pure b := by
  intro es deep shallow h b taken
  cases es with
  | nil => exact taken
  | cons e rest => exact taken

end Runs

/-- A type whose values are records, or lists of the fields of a record. -/
theorem steady_of_forms {decode : Data → Decoded α} (step : σ → String → Data → Decoded σ)
    {start : σ} {finish : σ → Decoded α} (steady : ∀ s name, Steady (step s name))
    (forms : ∀ d a, decode d = .ok a →
      (∃ ms closed, d = .record ms closed) ∨ ∃ ds closed, d = .list ds closed)
    (records : ∀ ms closed, decode (.record ms closed) = record step start ms closed >>= finish)
    (lists : SteadyRun fun ds => decode (.list ds true)) :
    Steady decode := by
  intro v deep shallow h a decoded
  obtain ⟨ms, closed, isRecord⟩ | ⟨ds, closed, isList⟩ := forms _ _ decoded
  · obtain ⟨inside, rfl, gap, ms, rfl, rfl⟩ := Json.Script.of_data_record isRecord
    rw [isRecord, records] at decoded
    obtain ⟨s, taken, finished⟩ := of_bind decoded
    have further := members_steady steady (Nat.succ_le_succ h) (members_of_record taken)
    rw [Json.Script.data_record gap ms (by omega), records, record_closed further]
    exact finished
  · obtain ⟨inside, rfl, gap, es, rfl, rfl⟩ := Json.Script.of_data_list isList
    rw [isList] at decoded
    rw [Json.Script.data_list gap es (by omega)]
    exact lists es (deep + 1) (shallow + 1) (Nat.succ_le_succ h) a decoded

theorem steady_declaration : Steady (declaration dialect) := by
  apply steady_of_forms (MethodFields.step dialect)
  · intro f name
    unfold MethodFields.step
    split
    · exact steady_fill steady_text f.name fun name => { f with name }
    · exact steady_fill steady_text f.descriptor fun descriptor => { f with descriptor }
    · exact steady_fill (steady_list steady_instruction) f.instructions
        fun instructions => { f with instructions }
    · exact steady_skip f
  · intro d a decoded
    unfold declaration at decoded
    split at decoded
    · exact .inl ⟨_, _, rfl⟩
    · exact .inr ⟨_, _, rfl⟩
    · cases decoded
  · intro ms closed
    rfl
  · exact steady_next steady_text fun _ => steady_next steady_text fun _ =>
      steady_nextOr [] (steady_list steady_instruction) fun _ => steady_finish dialect _

theorem steady_classForm : Steady (classForm dialect) := by
  apply steady_of_forms (ClassFields.step dialect)
  · intro f name
    unfold ClassFields.step
    split
    · exact steady_fill steady_text f.name fun name => { f with name }
    · exact steady_fill (steady_list steady_declaration) f.methods fun methods => { f with methods }
    · exact steady_skip f
  · intro d a decoded
    unfold classForm at decoded
    split at decoded
    · exact .inl ⟨_, _, rfl⟩
    · exact .inr ⟨_, _, rfl⟩
    · cases decoded
  · intro ms closed
    rfl
  · exact steady_next steady_text fun _ =>
      steady_nextOr [] (steady_list steady_declaration) fun _ => steady_finish dialect _

theorem steady_classTree : Steady (classTree dialect) := by
  intro v deep shallow h c decoded
  unfold classTree at decoded ⊢
  cases form : classForm dialect (v.data deep) with
  | error e =>
    rw [form] at decoded
    cases decoded
  | ok f =>
    rw [form] at decoded
    rw [steady_classForm v deep shallow h f form]
    exact decoded

theorem steady_classUnit : Steady (classUnit dialect) := by
  apply steady_of_forms (UnitFields.step dialect)
  · intro f name
    unfold UnitFields.step
    split
    · exact steady_fill steady_classTree f.class fun c => { f with «class» := c }
    · exact steady_fill (steady_list steady_mutation) f.mutations
        fun mutations => { f with mutations }
    · exact steady_skip f
  · intro d a decoded
    unfold classUnit at decoded
    split at decoded
    · exact .inl ⟨_, _, rfl⟩
    · exact .inr ⟨_, _, rfl⟩
    · cases decoded
  · intro ms closed
    rfl
  · exact steady_next steady_classTree fun _ =>
      steady_nextOr [] (steady_list steady_mutation) fun _ => steady_finish dialect _

end Steadiness

end Decode

namespace UnitFormat

theorem parse_element (before after : Json.Gap) (v : Json.Script) :
    json.parse (Json.Element.mk before v after).source =
      if v.isList then Decode.list (Decode.classUnit .json) (v.data 0)
      else Decode.unitFile .json (v.data 0) := by
  rw [parse, Json.Element.source, String.toList_ofList, Decode.jsonUnits_element]

theorem parse_script (v : Json.Script) :
    json.parse v.source =
      if v.isList then Decode.list (Decode.classUnit .json) (v.data 0)
      else Decode.unitFile .json (v.data 0) := by
  have whole : (Json.Element.mk .none v .none).source = v.source := by
    simp [Json.Element.source, Json.Script.source, Json.Element.text, Json.Gap.none]
  rw [← whole, parse_element]

/-- An array and an object with that array as its units are parsed alike, whatever else the object
holds. In the object the array is nested once more: if the allowed depth is kept there too, both
give the same units or both are refused, and in any case all that the object gives the array gives
as well. An object without units holds none. Blanks around a value change nothing. What is said here
of values holds of every text that is read to its end, for such a text is a value with blanks around
it. -/
theorem shapes_agree :
    (∀ gap items (o : Json.UnitObject), (Json.Script.list gap items).depth < 127 →
      json.parse (o.around (.list gap items)).source =
        json.parse (Json.Script.list gap items).source) ∧
    (∀ gap items (o : Json.UnitObject) units,
      json.parse (o.around (.list gap items)).source = .ok units →
        json.parse (Json.Script.list gap items).source = .ok units) ∧
    (∀ gap members, (∀ m ∈ members, m.Other "units") →
      json.parse (Json.Script.record gap members).source = .ok []) ∧
    (∀ (v : Json.Script) (before after : Json.Gap),
      json.parse (Json.Element.mk before v after).source = json.parse v.source) ∧
    ∀ text : String, Json.ends (Json.read text.toList).2 = true ↔
      ∃ before v after, (Json.Element.mk before v after).source = text := by
  have object : ∀ gap items (o : Json.UnitObject), json.parse (o.around (.list gap items)).source =
      Decode.list (Decode.classUnit .json) ((Json.Script.list gap items).data 1) := by
    intro gap items o
    rw [parse_script, ← Decode.unitFile_around o]
    rfl
  have array : ∀ gap items, json.parse (Json.Script.list gap items).source =
      Decode.list (Decode.classUnit .json) ((Json.Script.list gap items).data 0) := by
    intro gap items
    rw [parse_script]
    rfl
  refine ⟨?_, ?_, ?_, ?_, ?_⟩
  · intro gap items o within
    rw [object, array, Json.Script.data_allowed 1 0 (by decide) _ (by omega)]
  · intro gap items o units parsed
    rw [object] at parsed
    rw [array]
    exact Decode.steady_list Decode.steady_classUnit _ 1 0 (by decide) units parsed
  · intro gap members others
    rw [parse_script]
    exact Decode.unitFile_others others gap
  · intro v before after
    rw [parse_element, parse_script]
  · intro text
    rw [Json.ends_read_iff]
    constructor
    · rintro ⟨⟨before, v, after⟩, spelled⟩
      exact ⟨before, v, after, by rw [Json.Element.source, spelled, String.ofList_toList]⟩
    · rintro ⟨before, v, after, rfl⟩
      exact ⟨⟨before, v, after⟩, String.toList_ofList.symm⟩

def shopItems : List Json.Element :=
  [⟨.none, .list .none [⟨.none, .list .none [⟨.none, .string (.written "Shop"), .none⟩], .none⟩],
    .none⟩]

def noteMember : Json.Member := ⟨.none, .written "note", .none, ⟨.none, .null, .none⟩⟩

theorem noteMember_other : ∀ m ∈ [noteMember], m.Other "units" := by
  intro m inside
  rw [List.mem_singleton] at inside
  subst inside
  exact ⟨"note", Json.Literal.content_written "note", by decide⟩

def shopObject : Json.UnitObject where
  front := [noteMember]
  before := .none
  name := .written "units"
  between := .none
  margin := .none
  after := .none
  behind := []
  named := Json.Literal.content_written "units"
  others := noteMember_other

theorem shop_parsed :
    json.parse "\x7b\"note\":null,\"units\":[[[\"Shop\"]]]\x7d" = json.parse "[[[\"Shop\"]]]" ∧
      (∃ units, json.parse "[[[\"Shop\"]]]" = .ok units ∧ units.length = 1) ∧
      json.parse "\x7b\"note\":null\x7d" = .ok [] := by
  have object : (shopObject.around (.list .none shopItems)).source =
      "\x7b\"note\":null,\"units\":[[[\"Shop\"]]]\x7d" := by decide +kernel
  have array : (Json.Script.list .none shopItems).source = "[[[\"Shop\"]]]" := by decide +kernel
  have bare : (Json.Script.record .none [noteMember]).source = "\x7b\"note\":null\x7d" := by
    decide +kernel
  obtain ⟨alike, backwards, absent, -⟩ := shapes_agree
  refine ⟨?_, ?_, ?_⟩
  · rw [← object, ← array]
    exact alike .none shopItems shopObject (by decide)
  · have one : (json.parse "\x7b\"note\":null,\"units\":[[[\"Shop\"]]]\x7d").toOption.map
        List.length = some 1 := by decide +kernel
    rw [← object] at one
    cases parsed : json.parse (shopObject.around (.list .none shopItems)).source with
    | error e =>
      rw [parsed] at one
      cases one
    | ok units =>
      rw [parsed] at one
      rw [← array]
      exact ⟨units, backwards .none shopItems shopObject units parsed, Option.some.inj one⟩
  · rw [← bare]
    exact absent .none [noteMember] noteMember_other

end UnitFormat

end MutantSieve
