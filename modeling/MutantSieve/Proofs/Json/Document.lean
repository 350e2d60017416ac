import MutantSieve.Proofs.Json.Script

/-!
# Documents and their texts

The text of a JSON value is one of the grammar and is read back as the value. This holds of values
that are built from integers of 64 bits, truth values and texts and are not nested too deeply;
floating point numbers are left out.
-/

set_option autoImplicit false

namespace MutantSieve.Json

mutual

def data : Json → Data
  | null => .null
  | bool b => .bool b
  | int i => .number (.integer i)
  | float .. => .cut
  | text s => .text (some s)
  | list js => .list (itemsData js) true
  | record ms => .record (membersData ms) true

def itemsData : List Json → List Data
  | [] => []
  | j :: rest => j.data :: itemsData rest

def membersData : List (String × Json) → List (Option String × Data)
  | [] => []
  | (k, j) :: rest => (some k, j.data) :: membersData rest

end

mutual

def Readable (depth : Nat) : Json → Prop
  | int i => Data.inRange i = true
  | float .. => False
  | list js => depth < 127 ∧ ItemsReadable (depth + 1) js
  | record ms => depth < 127 ∧ MembersReadable (depth + 1) ms
  | _ => True

def ItemsReadable (depth : Nat) : List Json → Prop
  | [] => True
  | j :: rest => Readable depth j ∧ ItemsReadable depth rest

def MembersReadable (depth : Nat) : List (String × Json) → Prop
  | [] => True
  | (_, j) :: rest => Readable depth j ∧ MembersReadable depth rest

end

mutual

/-- What is written for a value belongs to the grammar and stands for the value. -/
theorem exists_script (depth : Nat) : (j : Json) → Readable depth j →
    ∃ v : Script, v.text = j.compact ∧ v.data depth = j.data
  | null, _ => ⟨.null, rfl, rfl⟩
  | bool b, _ => ⟨.bool b, rfl, rfl⟩
  | int i, readable => by
    obtain ⟨n, text, value⟩ := exists_number readable
    exact ⟨.number n, text, by rw [Script.data, value]; rfl⟩
  | float .., readable => absurd readable (by simp [Readable])
  | text s, _ =>
    ⟨.string (.written s), Literal.text_written s, by
      rw [Script.data, Literal.content_written]
      rfl⟩
  | list [], readable => ⟨.list .none [], rfl, Script.data_list .none [] readable.1⟩
  | list (j :: rest), readable => by
    obtain ⟨v, text, data⟩ := exists_script (depth + 1) j readable.2.1
    obtain ⟨es, texts, datas⟩ := exists_items (depth + 1) rest readable.2.2
    refine ⟨.list .none (⟨.none, v, .none⟩ :: es), ?_, ?_⟩
    · simp [Script.text, Element.text, Gap.none, text, texts, compact]
    · rw [Script.data_list _ _ readable.1, Script.itemsData, Element.data, data, datas]
      rfl
  | record [], readable => ⟨.record .none [], rfl, Script.data_record .none [] readable.1⟩
  | record ((k, j) :: rest), readable => by
    obtain ⟨v, text, data⟩ := exists_script (depth + 1) j readable.2.1
    obtain ⟨ms, texts, datas⟩ := exists_members (depth + 1) rest readable.2.2
    refine ⟨.record .none (⟨.none, .written k, .none, ⟨.none, v, .none⟩⟩ :: ms), ?_, ?_⟩
    · simp [Script.text, Member.text, Element.text, Gap.none, Literal.text_written, text, texts,
        compact]
    · rw [Script.data_record _ _ readable.1, Script.membersData, Member.data, Element.data,
        Literal.content_written, data, datas]
      rfl

theorem exists_items (depth : Nat) : (js : List Json) → ItemsReadable depth js →
    ∃ es : List Element, Script.itemsText es = compactItems js ∧
      Script.itemsData depth es = itemsData js
  | [], _ => ⟨[], rfl, rfl⟩
  | j :: rest, readable => by
    obtain ⟨v, text, data⟩ := exists_script depth j readable.1
    obtain ⟨es, texts, datas⟩ := exists_items depth rest readable.2
    refine ⟨⟨.none, v, .none⟩ :: es, ?_, ?_⟩
    · simp [Script.itemsText, Element.text, Gap.none, text, texts, compactItems]
    · rw [Script.itemsData, Element.data, data, datas]
      rfl

theorem exists_members (depth : Nat) : (js : List (String × Json)) → MembersReadable depth js →
    ∃ ms : List Member, Script.membersText ms = compactMembers js ∧
      Script.membersData depth ms = membersData js
  | [], _ => ⟨[], rfl, rfl⟩
  | (k, j) :: rest, readable => by
    obtain ⟨v, text, data⟩ := exists_script depth j readable.1
    obtain ⟨ms, texts, datas⟩ := exists_members depth rest readable.2
    refine ⟨⟨.none, .written k, .none, ⟨.none, v, .none⟩⟩ :: ms, ?_, ?_⟩
    · simp [Script.membersText, Member.text, Element.text, Gap.none, Literal.text_written, text,
        texts, compactMembers]
    · rw [Script.membersData, Member.data, Element.data, Literal.content_written, data, datas]
      rfl

end

theorem read_compact {j : Json} (h : Readable 0 j) : read j.compact = (j.data, some []) := by
  obtain ⟨v, text, data⟩ := exists_script 0 j h
  have whole := v.readValue_text 0 (2 * v.text.length + 2) [] (by omega) endsNumber_nil
  rwa [List.append_nil, text, data] at whole

mutual

theorem data_clean {depth : Nat} : (j : Json) → Readable depth j → j.data.clean = true
  | null, _ | bool _, _ | text _, _ => rfl
  | int _, readable => readable
  | float .., readable => absurd readable (by simp [Readable])
  | list js, readable => itemsData_clean js readable.2
  | record ms, readable => membersData_clean ms readable.2

theorem itemsData_clean {depth : Nat} : (js : List Json) → ItemsReadable depth js →
    Data.itemsClean (itemsData js) = true
  | [], _ => rfl
  | j :: rest, readable => by
    rw [itemsData, Data.itemsClean, data_clean j readable.1, itemsData_clean rest readable.2]
    rfl

theorem membersData_clean {depth : Nat} : (ms : List (String × Json)) → MembersReadable depth ms →
    Data.membersClean (membersData ms) = true
  | [], _ => rfl
  | (k, j) :: rest, readable => by
    rw [membersData, Data.membersClean, data_clean j readable.1, membersData_clean rest readable.2]
    rfl

end

theorem readable_map {α : Type} {depth : Nat} {write : α → Json} {as : List α}
    (shallow : depth < 127) (h : ∀ a ∈ as, Readable (depth + 1) (write a)) :
    Readable depth (list (as.map write)) := by
  refine ⟨shallow, ?_⟩
  induction as with
  | nil => trivial
  | cons a as ih => exact ⟨h a (by simp), ih fun b hb => h b (by simp [hb])⟩

end MutantSieve.Json
