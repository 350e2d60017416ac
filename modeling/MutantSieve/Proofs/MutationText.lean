import MutantSieve.Json.Encode
import MutantSieve.Proofs.Decode
import MutantSieve.Proofs.Mutator

/-!
# Mutations and their texts

A mutation that was read from a text has a mutator that some text names, so its identifier names the
mutator again. Its other fields are written as they are read, and the optional ones are left out
exactly where they were not there. So the text of a mutation that was read is read as that mutation,
however the text it came from was spelled.
-/

set_option autoImplicit false

namespace MutantSieve

def Mutation.Named (m : Mutation) : Prop := Mutator.ofId m.id.mutator.uniqueId = m.id.mutator

section Readable

open Json

variable {depth : Nat}

theorem Location.readable (l : Location) (shallow : depth < 127) : Readable depth l.toJson := by
  simpa [toJson, Readable, MembersReadable] using shallow

theorem Mutation.readable (m : Mutation) (shallow : depth < 126) : Readable depth m.toJson := by
  have place := m.id.location.readable (show depth + 1 < 127 by omega)
  have index := Data.inRange_word64 m.id.index
  have line : ∀ n : UInt32, Data.inRange n.toNat = true := Data.inRange_word32
  rw [toJson, Readable]
  refine ⟨by omega, ?_⟩
  cases m.filename <;> cases m.line <;>
    simp [optionalMember, MembersReadable, Readable, nat, place, index, line]

end Readable

namespace Decode

section Written

theorem location_toJson (l : Location) : location l.toJson.data = .ok l := by
  have fields : record LocationFields.step {}
      (Json.membersData [("class", .text l.class), ("method", .text l.method),
        ("descriptor", .text l.descriptor)]) true =
      .ok ⟨some l.class, some l.method, some l.descriptor⟩ :=
    record_closed <| members_fill rfl (text_text _) <| members_fill rfl (text_text _) <|
      members_fill rfl (text_text _) rfl
  simp only [Location.toJson, Json.data, location, fields]
  rfl

theorem nullable_text (s : String) : nullable text (Json.text s).data = .ok (some s) := rfl

theorem nullable_word32 (n : UInt32) :
    nullable word32 (Json.nat n.toNat).data = .ok (some n) := by
  have read := word32_nat n
  rw [Json.nat, Json.data] at read ⊢
  rw [nullable, read]
  · rfl
  · intro null
    cases null

theorem members_optional {α σ : Type} {step : σ → String → Data → Decoded σ} {t : σ}
    {name : String} {write : α → Json} {decode : Data → Decoded (Option α)}
    {ms : List (String × Json)} (put : Option (Option α) → σ) (value : Option α)
    (taken : ∀ d, step (put none) name d = do return put (← fill decode d none))
    (read : ∀ a, decode (write a).data = .ok (some a))
    (others : members step (put (value.map some)) (Json.membersData ms) = .ok t) :
    members step (put none) (Json.membersData (optionalMember name write value ++ ms)) = .ok t := by
  cases value with
  | none => exact others
  | some a => exact members_fill (taken _) (read a) others

def MutationFields.of (m : Mutation) : MutationFields :=
  { location := some m.id.location
    index := some m.id.index
    mutator := some m.id.mutator
    description := some m.description
    filename := m.filename.map some
    line := m.line.map some }

def optionalMembers (m : Mutation) : List (String × Json) :=
  optionalMember "filename" .text m.filename ++
    optionalMember "line" (fun line => .nat line.toNat) m.line

theorem members_optionalMembers (m : Mutation) :
    members MutationFields.step { MutationFields.of m with filename := none, line := none }
      (Json.membersData (optionalMembers m)) = .ok (MutationFields.of m) := by
  rw [optionalMembers, ← List.append_nil (optionalMember "line" _ _)]
  apply members_optional
    (fun name => ({ MutationFields.of m with filename := name, line := none } : MutationFields))
    m.filename
  · intro d
    rfl
  · exact nullable_text
  apply members_optional
    (fun line => ({ MutationFields.of m with line := line } : MutationFields)) m.line
  · intro d
    rfl
  · exact nullable_word32
  · rfl

theorem members_toJson {m : Mutation} (h : m.Named) :
    ∃ ms, m.toJson.data = .record ms true ∧
      members MutationFields.step {} ms = .ok (MutationFields.of m) := by
  refine ⟨_, rfl, ?_⟩
  have mutator : (text (Json.text m.id.mutator.uniqueId).data).map Mutator.ofId =
      .ok m.id.mutator := congrArg Except.ok h
  rw [List.append_assoc]
  exact members_fill rfl (location_toJson _) <| members_fill rfl (word64_nat _) <|
    members_fill rfl mutator <| members_fill rfl (text_text _) (members_optionalMembers m)

theorem mutation_toJson {m : Mutation} (h : m.Named) : mutation m.toJson.data = .ok m := by
  have clean := Json.data_clean m.toJson (m.readable (show 0 < 126 by decide))
  obtain ⟨ms, whole, taken⟩ := members_toJson h
  have fields := record_closed taken
  rw [whole] at clean ⊢
  simp only [mutation, clean, fields, Bool.not_true, Bool.false_eq_true, if_false]
  obtain ⟨id, description, filename, line⟩ := m
  cases filename <;> cases line <;> rfl

end Written

section Read

def MutationFields.Spelled (f : MutationFields) : Prop :=
  ∀ k, f.mutator = some k → ∃ id, k = Mutator.ofId id

theorem spelled_step (f : MutationFields) (name : String) (d : Data) (f' : MutationFields)
    (taken : f.step name d = .ok f') (spelled : f.Spelled) : f'.Spelled := by
  unfold MutationFields.step at taken
  split at taken
  case h_3 =>
    obtain ⟨mutator, read, rfl⟩ := filled taken
    obtain ⟨id, -, named⟩ := of_map read
    intro k same
    cases same
    exact ⟨id, named⟩
  case h_7 =>
    cases taken
    exact spelled
  -- The other fields leave the mutator alone.
  all_goals
    obtain ⟨a, -, rfl⟩ := filled taken
    exact spelled

theorem mutation_fields {d : Data} {m : Mutation} (h : mutation d = .ok m) :
    ∃ ms closed f, d = .record ms closed ∧ record MutationFields.step {} ms closed = .ok f ∧
      f.mutator = some m.id.mutator := by
  unfold mutation at h
  split at h
  · cases h
  split at h
  case h_2 => cases h
  case h_1 ms closed _ =>
    obtain ⟨f, fields, rest⟩ := of_bind h
    -- The place, the index and the mutator may not be missing.
    obtain ⟨location, -, rest⟩ := of_bind rest
    obtain ⟨index, -, rest⟩ := of_bind rest
    obtain ⟨mutator, named, rest⟩ := of_bind rest
    cases rest
    exact ⟨ms, closed, f, rfl, fields, of_present named⟩

theorem mutation_named {d : Data} {m : Mutation} (h : mutation d = .ok m) : m.Named := by
  obtain ⟨ms, closed, f, -, fields, mutator⟩ := mutation_fields h
  have spelled : f.Spelled :=
    members_invariant spelled_step (members_of_record fields) fun k none => nomatch none
  obtain ⟨id, named⟩ := spelled _ mutator
  rw [Mutation.Named, named, Mutator.ofId_uniqueId]

end Read

end Decode

/-- A mutation that was read from any text is read again from its own compact text, and has the same
text again. -/
theorem Mutation.read_written {text : String} {m : Mutation}
    (h : Decode.json Decode.mutation text.toList = .ok m) :
    Decode.json Decode.mutation m.toJson.compactText.toList = .ok m ∧
      ∀ m', Decode.json Decode.mutation m.toJson.compactText.toList = .ok m' →
        m'.toJson.compactText = m.toJson.compactText := by
  obtain ⟨d, decoded⟩ := Decode.data_of_json h
  have back : Decode.json Decode.mutation m.toJson.compactText.toList = .ok m := by
    rw [Json.compactText, String.toList_ofList,
      Decode.json_compact _ (m.readable (show 0 < 126 by decide)),
      Decode.mutation_toJson (Decode.mutation_named decoded)]
  refine ⟨back, fun m' again => ?_⟩
  rw [back] at again
  rw [Except.ok.inj again]

/-- A text with its members in an order of their own, an index of all 64 bits, a short name behind a
blank and in small letters, an absent file name, no description and a member without a meaning. -/
def freeText : String :=
  "\x7b\"line\":9,\"note\":[],\"mutator\":\"\\u00a0Math\",\"filename\":null," ++
  "\"index\":18446744073709551615,\"location\":" ++
  "\x7b\"method\":\"total\",\"descriptor\":\"()I\",\"class\":\"Shop\"\x7d\x7d "

def freeMutation : Mutation :=
  { id := ⟨⟨"Shop", "total", "()I"⟩, 18446744073709551615, .math⟩
    line := some 9 }

theorem freeText_read : Decode.json Decode.mutation freeText.toList = .ok freeMutation ∧
    Decode.json Decode.mutation freeMutation.toJson.compactText.toList = .ok freeMutation :=
  have h : Decode.json Decode.mutation freeText.toList = .ok freeMutation := by decide +kernel
  ⟨h, (Mutation.read_written h).1⟩

end MutantSieve
