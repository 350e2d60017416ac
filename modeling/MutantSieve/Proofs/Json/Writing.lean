import MutantSieve.Proofs.Decode
import MutantSieve.Proofs.Json.Decimal

/-!
# Values with floating point numbers and their texts

The text of a value stands for data whether or not floating point numbers are in it: one that is
finite is written as a number, any other as `null`. What a list or a record stands for is put
together from what its items or members stand for.
-/

set_option autoImplicit false

namespace MutantSieve.Json

variable {depth : Nat}

def Writes (depth : Nat) (j : Json) (d : Data) : Prop :=
  ∃ v : Script, v.text = j.compact ∧ v.data depth = d

theorem writes_readable {j : Json} (h : Readable depth j) : Writes depth j j.data :=
  exists_script depth j h

theorem writes_items {js : List Json} {ds : List Data} (h : List.Forall₂ (Writes depth) js ds) :
    ∃ es : List Element,
      Script.itemsText es = compactItems js ∧ Script.itemsData depth es = ds := by
  induction h with
  | nil => exact ⟨[], rfl, rfl⟩
  | @cons j d js ds first others ih =>
    obtain ⟨v, text, data⟩ := first
    obtain ⟨es, texts, datas⟩ := ih
    refine ⟨⟨.none, v, .none⟩ :: es, ?_, ?_⟩
    · simp [Script.itemsText, Element.text, Gap.none, text, texts, compactItems]
    · rw [Script.itemsData, Element.data, data, datas]

theorem writes_list {js : List Json} {ds : List Data} (shallow : depth < 127)
    (h : List.Forall₂ (Writes (depth + 1)) js ds) : Writes depth (.list js) (.list ds true) := by
  cases h with
  | nil => exact ⟨.list .none [], rfl, Script.data_list .none [] shallow⟩
  | @cons j d js ds first others =>
    obtain ⟨v, text, data⟩ := first
    obtain ⟨es, texts, datas⟩ := writes_items others
    refine ⟨.list .none (⟨.none, v, .none⟩ :: es), ?_, ?_⟩
    · simp [Script.text, Element.text, Gap.none, text, texts, compact]
    · rw [Script.data_list _ _ shallow, Script.itemsData, Element.data, data, datas]

def WritesMember (depth : Nat) (m : String × Json) (d : Option String × Data) : Prop :=
  d.1 = some m.1 ∧ Writes depth m.2 d.2

theorem writes_members {ms : List (String × Json)} {ds : List (Option String × Data)}
    (h : List.Forall₂ (WritesMember depth) ms ds) :
    ∃ es : List Member, Script.membersText es = compactMembers ms ∧
      Script.membersData depth es = ds := by
  induction h with
  | nil => exact ⟨[], rfl, rfl⟩
  | @cons m d ms ds first others ih =>
    obtain ⟨k, j⟩ := m
    obtain ⟨name, d⟩ := d
    obtain ⟨rfl, v, text, data⟩ := first
    obtain ⟨es, texts, datas⟩ := ih
    simp only at text data
    refine ⟨⟨.none, .written k, .none, ⟨.none, v, .none⟩⟩ :: es, ?_, ?_⟩
    · simp [Script.membersText, Member.text, Element.text, Gap.none, Literal.text_written, text,
        texts, compactMembers]
    · rw [Script.membersData, Member.data, Element.data, Literal.content_written, data, datas]

theorem writes_record {ms : List (String × Json)} {ds : List (Option String × Data)}
    (shallow : depth < 127) (h : List.Forall₂ (WritesMember (depth + 1)) ms ds) :
    Writes depth (.record ms) (.record ds true) := by
  cases h with
  | nil => exact ⟨.record .none [], rfl, Script.data_record .none [] shallow⟩
  | @cons m d ms ds first others =>
    obtain ⟨k, j⟩ := m
    obtain ⟨name, d⟩ := d
    obtain ⟨rfl, v, text, data⟩ := first
    obtain ⟨es, texts, datas⟩ := writes_members others
    simp only at text data
    refine ⟨.record .none (⟨.none, .written k, .none, ⟨.none, v, .none⟩⟩ :: es), ?_, ?_⟩
    · simp [Script.text, Member.text, Element.text, Gap.none, Literal.text_written, text, texts,
        compact]
    · rw [Script.data_record _ _ shallow, Script.membersData, Member.data, Element.data,
        Literal.content_written, data, datas]

theorem writes_map {α : Type} {write : α → Json} {value : α → Data} {as : List α}
    (shallow : depth < 127) (h : ∀ a ∈ as, Writes (depth + 1) (write a) (value a)) :
    Writes depth (.list (as.map write)) (.list (as.map value) true) := by
  apply writes_list shallow
  rw [List.forall₂_map_left_iff, List.forall₂_map_right_iff, List.forall₂_same]
  exact h

theorem Writes.read {j : Json} {d : Data} (h : Writes 0 j d) : read j.compact = (d, some []) := by
  obtain ⟨v, text, data⟩ := h
  have whole := v.readValue_text 0 (2 * v.text.length + 2) [] (by omega) endsNumber_nil
  rwa [List.append_nil, text, data] at whole

theorem Writes.decode {α : Type} {j : Json} {d : Data} (h : Writes 0 j d)
    (decode : Data → Decoded α) : Decode.json decode j.compactText.toList = decode d := by
  have complete : ∀ a : α, Decode.ended (ends (some [])) a = .ok a := fun _ => rfl
  rw [compactText, String.toList_ofList]
  cases decoded : decode d <;> simp only [Decode.json, h.read, decoded, complete]

theorem exists_float (f : Binary.Format) (x : Binary) :
    ∃ d, (∀ depth, Writes depth (.float f x) d) ∧
      if x.isFinite then ∃ n : Number, n.text = f.json x ∧ d = .number n.parts.value
      else d = .null := by
  cases x with
  | finite negative m q =>
    obtain ⟨n, text, -⟩ :=
      (Decimal.spells_notated f.positional (f.shortest false m q)).text negative
    exact ⟨.number n.parts.value, fun depth => ⟨.number n, text, rfl⟩, n, text, rfl⟩
  | infinite negative => exact ⟨.null, fun depth => ⟨.null, rfl, rfl⟩, rfl⟩
  | undefined => exact ⟨.null, fun depth => ⟨.null, rfl, rfl⟩, rfl⟩

end MutantSieve.Json
