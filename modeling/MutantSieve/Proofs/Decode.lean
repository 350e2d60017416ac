import Mathlib.Data.List.Forall2
import MutantSieve.Proofs.Json.Document
import MutantSieve.UnitFile

/-!
# Decoding what was written

The data of a value decode to the value again: words keep their bits, lists are decoded item by item
and records member by member. A text that can be read back decodes as the data it was written from.
-/

set_option autoImplicit false

namespace MutantSieve

namespace Word

theorem size_le_size {small large : Nat} (h : small ≤ large) : size small ≤ size large :=
  Nat.pow_le_pow_right (by decide) h

theorem unsigned_natCast {bits n : Nat} (h : n < size bits) : unsigned bits n = true := by
  simp only [unsigned, Bool.and_eq_true, decide_eq_true_eq, Int.ofNat_eq_natCast]
  omega

theorem signed_of_bounds {bits : Nat} {i : Int} (low : -(size (bits - 1) : Int) ≤ i)
    (high : i < (size (bits - 1) : Int)) : signed bits i = true := by
  simp only [signed, Bool.and_eq_true, decide_eq_true_eq, Int.ofNat_eq_natCast]
  exact ⟨low, high⟩

end Word

namespace Data

theorem inRange_natCast {bits n : Nat} (h : n < Word.size bits) (narrow : bits ≤ 64) :
    inRange n = true := by
  have bound := Word.size_le_size narrow
  rw [inRange, Word.unsigned_natCast (by omega), Bool.or_true]

theorem inRange_of_bounds {bits : Nat} {i : Int} (low : -(Word.size (bits - 1) : Int) ≤ i)
    (high : i < (Word.size (bits - 1) : Int)) (narrow : bits ≤ 64) : inRange i = true := by
  have bound : Word.size (bits - 1) ≤ Word.size (64 - 1) := Word.size_le_size (by omega)
  rw [inRange, Word.signed_of_bounds (by omega) (by omega), Bool.true_or]

theorem inRange_word16 (n : UInt16) : inRange n.toNat = true :=
  inRange_natCast (show n.toNat < Word.size 16 from n.toNat_lt) (by decide)

theorem inRange_word32 (n : UInt32) : inRange n.toNat = true :=
  inRange_natCast (show n.toNat < Word.size 32 from n.toNat_lt) (by decide)

theorem inRange_word64 (n : UInt64) : inRange n.toNat = true :=
  inRange_natCast (show n.toNat < Word.size 64 from n.toNat_lt) (by decide)

theorem inRange_int32 (n : Int32) : inRange n.toInt = true :=
  have low : -(Word.size (32 - 1) : Int) ≤ n.toInt := n.le_toInt
  inRange_of_bounds low n.toInt_lt (by decide)

theorem inRange_int64 (n : Int64) : inRange n.toInt = true :=
  have low : -(Word.size (64 - 1) : Int) ≤ n.toInt := n.le_toInt
  inRange_of_bounds low n.toInt_lt (by decide)

end Data

namespace Decode

section Scalars

theorem natural_nat {bits n : Nat} (h : n < Word.size bits) :
    natural bits (Json.nat n).data = .ok n := by
  have read : integer (Word.unsigned bits) (Json.nat n).data = .ok (n : Int) :=
    if_pos (Word.unsigned_natCast h)
  rw [natural, read]
  rfl

theorem word16_nat (n : UInt16) : word16 (Json.nat n.toNat).data = .ok n := by
  rw [word16, natural_nat n.toNat_lt, Except.map, UInt16.ofNat_toNat]

theorem word32_nat (n : UInt32) : word32 (Json.nat n.toNat).data = .ok n := by
  rw [word32, natural_nat n.toNat_lt, Except.map, UInt32.ofNat_toNat]

theorem word64_nat (n : UInt64) : word64 (Json.nat n.toNat).data = .ok n := by
  rw [word64, natural_nat n.toNat_lt, Except.map, UInt64.ofNat_toNat]

theorem integer_int {bits : Nat} {i : Int} (low : -(Word.size (bits - 1) : Int) ≤ i)
    (high : i < (Word.size (bits - 1) : Int)) :
    integer (Word.signed bits) (Json.int i).data = .ok i :=
  if_pos (Word.signed_of_bounds low high)

theorem int32_int (n : Int32) : int32 (Json.int n.toInt).data = .ok n := by
  rw [int32, integer_int n.le_toInt n.toInt_lt, Except.map, Int32.ofInt_toInt]

theorem int64_int (n : Int64) : int64 (Json.int n.toInt).data = .ok n := by
  rw [int64, integer_int n.le_toInt n.toInt_lt, Except.map, Int64.ofInt_toInt]

theorem text_text (s : String) : text (Json.text s).data = .ok s := rfl

theorem bool_bool (b : Bool) : bool (Json.bool b).data = .ok b := rfl

end Scalars

section Lists

variable {α β : Type} {decode : Data → Decoded β} {write : α → Json} {value : α → β}

theorem items_map {as : List α} (h : ∀ a ∈ as, decode (write a).data = .ok (value a)) :
    items decode (Json.itemsData (as.map write)) = .ok (as.map value) := by
  induction as with
  | nil => rfl
  | cons a as ih =>
    have first := h a (by simp)
    have others := ih fun b hb => h b (by simp [hb])
    rw [List.map_cons, Json.itemsData, items, first]
    simp only [others, Except.map, List.map_cons]

theorem items_eq_ok_iff {ds : List Data} {bs : List β} :
    items decode ds = .ok bs ↔ List.Forall₂ (fun d b => decode d = .ok b) ds bs := by
  induction ds generalizing bs with
  | nil => cases bs <;> simp [items]
  | cons d ds ih =>
    rw [items]
    cases first : decode d with
    | error e => cases bs <;> simp [first]
    | ok b => cases others : items decode ds <;> cases bs <;> simp [Except.map, first, others, ← ih]

theorem of_list {d : Data} {bs : List β} (h : list decode d = .ok bs) :
    ∃ ds, d = .list ds true ∧ List.Forall₂ (fun d b => decode d = .ok b) ds bs := by
  cases d with
  | list ds closed =>
    rw [list] at h
    cases read : items decode ds with
    | error e =>
      rw [read] at h
      cases h
    | ok as =>
      rw [read] at h
      cases closed with
      | false => cases h
      | true =>
        cases h
        exact ⟨ds, rfl, items_eq_ok_iff.mp read⟩
  | _ => cases h

theorem list_map {as : List α} (h : ∀ a ∈ as, decode (write a).data = .ok (value a)) :
    list decode (Json.list (as.map write)).data = .ok (as.map value) := by
  rw [Json.data, list, items_map h]
  rfl

end Lists

section Steps

variable {α β : Type} {x : Decoded α} {b : β}

theorem of_bind {f : α → Decoded β} (h : x >>= f = .ok b) : ∃ a, x = .ok a ∧ f a = .ok b := by
  cases x with
  | error e => cases h
  | ok a => exact ⟨a, rfl, h⟩

theorem of_map {f : α → β} (h : x.map f = .ok b) : ∃ a, x = .ok a ∧ b = f a := by
  cases x with
  | error e => cases h
  | ok a => exact ⟨a, rfl, (Except.ok.inj h).symm⟩

theorem of_present {o : Option α} {a : α} (h : present o = .ok a) : o = some a := by
  cases o with
  | none => cases h
  | some b => rw [Except.ok.inj h]

end Steps

section Records

variable {α σ : Type} {step : σ → String → Data → Decoded σ} {s t : σ}
  {ms : List (Option String × Data)}

theorem members_fill {name : String} {d : Data} {decode : Data → Decoded α} {a : α}
    {put : Option α → σ} (taken : step s name d = do return put (← fill decode d none))
    (read : decode d = .ok a) (others : members step (put (some a)) ms = .ok t) :
    members step s ((some name, d) :: ms) = .ok t := by
  have filled : step s name d = .ok (put (some a)) := by
    rw [taken, fill, read]
    rfl
  rw [members, filled]
  exact others

theorem filled {decode : Data → Decoded α} {d : Data} {before : Option α} {put : Option α → σ}
    (h : (do return put (← fill decode d before)) = Except.ok (ε := Refusal) s) :
    ∃ a, decode d = .ok a ∧ s = put (some a) := by
  obtain ⟨field, done, same⟩ := of_bind h
  cases same
  cases before with
  | some a => cases done
  | none =>
    obtain ⟨a, read, rfl⟩ := of_map done
    exact ⟨a, read, rfl⟩

theorem of_members_cons {member : Option String × Data}
    (h : members step s (member :: ms) = .ok t) :
    ∃ name s', member.1 = some name ∧ step s name member.2 = .ok s' ∧
      members step s' ms = .ok t := by
  obtain ⟨name | name, d⟩ := member
  · cases h
  · rw [members] at h
    cases first : step s name d with
    | error e =>
      rw [first] at h
      cases h
    | ok s' =>
      rw [first] at h
      exact ⟨name, s', rfl, first, h⟩

theorem members_invariant {P : σ → Prop}
    (kept : ∀ s name d s', step s name d = .ok s' → P s → P s')
    (taken : members step s ms = .ok t) (start : P s) : P t := by
  induction ms generalizing s with
  | nil =>
    cases taken
    exact start
  | cons member ms ih =>
    obtain ⟨name, s', -, first, others⟩ := of_members_cons taken
    exact ih others (kept s name member.2 s' first start)

theorem of_record {closed : Bool} (h : record step s ms closed = .ok t) :
    closed = true ∧ members step s ms = .ok t := by
  rw [record] at h
  cases taken : members step s ms with
  | error e =>
    rw [taken] at h
    cases h
  | ok s' =>
    rw [taken] at h
    cases closed with
    | false => cases h
    | true => exact ⟨rfl, h⟩

theorem members_of_record {closed : Bool} (h : record step s ms closed = .ok t) :
    members step s ms = .ok t :=
  (of_record h).2

theorem of_skip {d : Data} (h : skip d s = .ok t) : t = s := by
  rw [skip] at h
  split at h
  · exact (Except.ok.inj h).symm
  · cases h

theorem record_closed (h : members step s ms = .ok t) : record step s ms true = .ok t := by
  rw [record, h]
  rfl

end Records

theorem json_compact {α : Type} (decode : Data → Decoded α) {j : Json}
    (readable : Json.Readable 0 j) : json decode j.compact = decode j.data := by
  have complete : ∀ a : α, ended (Json.ends (some [])) a = .ok a := fun _ => rfl
  cases decoded : decode j.data <;> simp only [json, Json.read_compact readable, decoded, complete]

theorem of_json {α : Type} {decode : Data → Decoded α} {s : List Char} {a : α}
    (h : json decode s = .ok a) :
    decode (Json.read s).1 = .ok a ∧ Json.ends (Json.read s).2 = true := by
  unfold json at h
  cases decoded : decode (Json.read s).1 with
  | error e => simp [decoded] at h
  | ok b =>
    simp only [decoded] at h
    unfold ended at h
    split at h
    case isTrue complete => exact ⟨h, complete⟩
    case isFalse => cases h

theorem data_of_json {α : Type} {decode : Data → Decoded α} {s : List Char} {a : α}
    (h : json decode s = .ok a) : ∃ d, decode d = .ok a :=
  ⟨(Json.read s).1, (of_json h).1⟩

end Decode

end MutantSieve
