import Mathlib.Data.List.DropRight
import MutantSieve.Proofs.Json.Numeral
import MutantSieve.Proofs.Json.Text

/-!
# Texts of the JSON grammar

A text is taken apart into what the grammar makes it of: values with blanks around them, strings
with every character in its spelling, numbers with their digits. Every such text is read as the data
that its parts stand for, whatever follows it. Lists and records beyond the allowed depth are read
too, but as data that can only be skipped.
-/

set_option autoImplicit false

namespace MutantSieve.Json

structure Gap where
  blanks : List Char
  blank : ∀ c ∈ blanks, isBlank c = true

def Gap.none : Gap := ⟨[], by simp⟩

mutual

/-- A value in its spelling. The blanks between brackets or braces are those of an empty pair. -/
inductive Script where
  | null
  | bool (value : Bool)
  | number (spelling : Number)
  | string (spelling : Literal)
  | list (gap : Gap) (items : List Element)
  | record (gap : Gap) (members : List Member)

inductive Element where
  | mk (before : Gap) (value : Script) (after : Gap)

inductive Member where
  | mk (before : Gap) (name : Literal) (between : Gap) (value : Element)

end

mutual

def Script.text : Script → List Char
  | .null => "null".toList
  | .bool b => word b
  | .number n => n.text
  | .string l => l.text
  | .list gap [] => '[' :: gap.blanks ++ [']']
  | .list _ (e :: rest) => '[' :: e.text ++ Script.itemsText rest
  | .record gap [] => '{' :: gap.blanks ++ ['}']
  | .record _ (m :: rest) => '{' :: m.text ++ Script.membersText rest

def Element.text : Element → List Char
  | ⟨before, v, after⟩ => before.blanks ++ (v.text ++ after.blanks)

def Member.text : Member → List Char
  | ⟨before, name, between, e⟩ => before.blanks ++ (name.text ++ (between.blanks ++ ':' :: e.text))

def Script.itemsText : List Element → List Char
  | [] => [']']
  | e :: rest => ',' :: e.text ++ Script.itemsText rest

def Script.membersText : List Member → List Char
  | [] => ['}']
  | m :: rest => ',' :: m.text ++ Script.membersText rest

end

mutual

def Script.data (depth : Nat) : Script → Data
  | .null => .null
  | .bool b => .bool b
  | .number n => .number n.parts.value
  | .string l => .text l.content
  | .list _ items => nested (depth + 1) (.list (Script.itemsData (depth + 1) items) true)
  | .record _ members => nested (depth + 1) (.record (Script.membersData (depth + 1) members) true)

def Element.data (depth : Nat) : Element → Data
  | ⟨_, v, _⟩ => v.data depth

def Member.data (depth : Nat) : Member → Option String × Data
  | ⟨_, name, _, e⟩ => (name.content, e.data depth)

def Script.itemsData (depth : Nat) : List Element → List Data
  | [] => []
  | e :: rest => e.data depth :: Script.itemsData depth rest

def Script.membersData (depth : Nat) : List Member → List (Option String × Data)
  | [] => []
  | m :: rest => m.data depth :: Script.membersData depth rest

end

mutual

def Script.depth : Script → Nat
  | .list _ items => Script.itemsDepth items + 1
  | .record _ members => Script.membersDepth members + 1
  | _ => 0

def Element.depth : Element → Nat
  | ⟨_, v, _⟩ => v.depth

def Member.depth : Member → Nat
  | ⟨_, _, _, e⟩ => e.depth

def Script.itemsDepth : List Element → Nat
  | [] => 0
  | e :: rest => max e.depth (Script.itemsDepth rest)

def Script.membersDepth : List Member → Nat
  | [] => 0
  | m :: rest => max m.depth (Script.membersDepth rest)

end

section Heads

theorem isBlank_iff {c : Char} : isBlank c = true ↔ c = ' ' ∨ c = '\n' ∨ c = '\t' ∨ c = '\r' := by
  simp [isBlank, or_assoc]

theorem isBlank_digit {c : Char} (digit : Text.isDigit c = true) : isBlank c = false := by
  simp only [isBlank, Bool.or_eq_false_iff, decide_eq_false_iff_not]
  refine ⟨⟨⟨?_, ?_⟩, ?_⟩, ?_⟩ <;> (rintro rfl; cases digit)

theorem number_head {c : Char} (h : Text.isDigit c = true ∨ c = '-') :
    isBlank c = false ∧ c ≠ ']' ∧ c ≠ '}' ∧ c ≠ '[' ∧ c ≠ '{' := by
  rcases h with digit | rfl
  · refine ⟨isBlank_digit digit, ?_, ?_, ?_, ?_⟩ <;> (rintro rfl; cases digit)
  · decide

theorem Script.text_head (v : Script) :
    ∃ c t, v.text = c :: t ∧ isBlank c = false ∧ c ≠ ']' ∧ c ≠ '}' := by
  cases v with
  | null => exact ⟨_, _, rfl, by decide, by decide, by decide⟩
  | bool b => cases b <;> exact ⟨_, _, rfl, by decide, by decide, by decide⟩
  | number n =>
    obtain ⟨c, t, first, number⟩ := number_text_head n
    obtain ⟨visible, bracket, brace, -⟩ := number_head number
    exact ⟨c, t, first, visible, bracket, brace⟩
  | string l => exact ⟨_, _, rfl, by decide, by decide, by decide⟩
  | list gap items => cases items <;> exact ⟨_, _, rfl, by decide, by decide, by decide⟩
  | record gap members => cases members <;> exact ⟨_, _, rfl, by decide, by decide, by decide⟩

theorem skipBlanks_cons {c : Char} (h : isBlank c = false) (s : List Char) :
    skipBlanks (c :: s) = c :: s := by
  simp [skipBlanks, h]

theorem skipBlanks_gap (gap : Gap) (s : List Char) : skipBlanks (gap.blanks ++ s) = skipBlanks s :=
  List.dropWhile_append_of_pos gap.blank

theorem skipBlanks_skipBlanks (s : List Char) : skipBlanks (skipBlanks s) = skipBlanks s :=
  List.dropWhile_idempotent isBlank s

theorem readValue_skip (fuel depth : Nat) (s : List Char) :
    readValue fuel depth (skipBlanks s) = readValue fuel depth s := by
  cases fuel with
  | zero => rfl
  | succ fuel => rw [readValue, readValue, skipBlanks_skipBlanks]

theorem readItems_skip (fuel depth : Nat) (s : List Char) :
    readItems fuel depth (skipBlanks s) = readItems fuel depth s := by
  cases fuel with
  | zero => rfl
  | succ fuel => rw [readItems, readItems, readValue_skip]

theorem readMembers_skip (fuel depth : Nat) (s : List Char) :
    readMembers fuel depth (skipBlanks s) = readMembers fuel depth s := by
  cases fuel with
  | zero => rfl
  | succ fuel => rw [readMembers, readMembers, skipBlanks_skipBlanks]

theorem readValue_scalar {c : Char} {t : List Char} (visible : isBlank c = false) (h : c ≠ '[')
    (h' : c ≠ '{') (fuel depth : Nat) :
    readValue (fuel + 1) depth (c :: t) = readScalar (c :: t) := by
  rw [readValue, skipBlanks_cons visible]
  split
  · rename_i same
    exact absurd (List.cons.inj same).1 h
  · rename_i same
    exact absurd (List.cons.inj same).1 h'
  · rfl

theorem readScalar_number {c : Char} {t : List Char} (h : Text.isDigit c = true ∨ c = '-')
    {p : Parts} {s : List Char} (read : readNumber (c :: t) = some (p, s)) :
    readScalar (c :: t) = (.number p.value, some s) := by
  unfold readScalar
  split
  case h_5 => rw [read]
  -- Neither a digit nor the sign starts a word or a string.
  all_goals
    rename_i same
    rw [(List.cons.inj same).1] at h
    rcases h with digit | sign
    · cases digit
    · cases sign

theorem readValue_number (n : Number) {s : List Char} (ends : EndsNumber s) (fuel depth : Nat) :
    readValue (fuel + 1) depth (n.text ++ s) = (.number n.parts.value, some s) := by
  have read := readNumber_text n ends
  obtain ⟨c, t, first, number⟩ := number_text_head n
  obtain ⟨visible, -, -, bracket, brace⟩ := number_head number
  rw [first, List.cons_append] at read ⊢
  rw [readValue_scalar visible bracket brace, readScalar_number number read]

theorem readValue_literal (l : Literal) (s : List Char) (fuel depth : Nat) :
    readValue (fuel + 1) depth (l.text ++ s) = (.text l.content, some s) := by
  have content := readString_literal l s
  rw [Literal.text, List.append_assoc, List.cons_append, List.singleton_append]
  rw [readValue_scalar (by decide) (by decide) (by decide), readScalar, content]

end Heads

section Steps

variable {s r : List Char} {fuel depth : Nat}

theorem endsNumber_gap (gap : Gap) (h : EndsNumber s) : EndsNumber (gap.blanks ++ s) := by
  obtain ⟨blanks, blank⟩ := gap
  cases blanks with
  | nil => exact h
  | cons b rest =>
    rcases isBlank_iff.mp (blank b List.mem_cons_self) with rfl | rfl | rfl | rfl <;>
      exact endsNumber_cons _ (by decide)

theorem readValue_list {c : Char} {t : List Char} (first : skipBlanks r = c :: t) (inside : c ≠ ']')
    {ds : List Data} (items : readItems fuel (depth + 1) r = (ds, some s)) :
    readValue (fuel + 1) depth ('[' :: r) = (nested (depth + 1) (.list ds true), some s) := by
  rw [← readItems_skip, first] at items
  rw [readValue, skipBlanks_cons (by decide)]
  simp only [first]
  split
  · rename_i same
    exact absurd (List.cons.inj same).1 inside
  · rw [items]
    rfl

theorem readValue_record {c : Char} {t : List Char} (first : skipBlanks r = c :: t)
    (inside : c ≠ '}') {ds : List (Option String × Data)}
    (members : readMembers fuel (depth + 1) r = (ds, some s)) :
    readValue (fuel + 1) depth ('{' :: r) = (nested (depth + 1) (.record ds true), some s) := by
  rw [← readMembers_skip, first] at members
  rw [readValue, skipBlanks_cons (by decide)]
  simp only [first]
  split
  · rename_i same
    exact absurd (List.cons.inj same).1 inside
  · rw [members]
    rfl

theorem readItems_last {t : List Char} {d : Data} (gap : Gap)
    (item : readValue fuel depth t = (d, some (gap.blanks ++ ']' :: s))) :
    readItems (fuel + 1) depth t = ([d], some s) := by
  rw [readItems, item]
  simp only [skipBlanks_gap, skipBlanks_cons (show isBlank ']' = false by decide)]

theorem readItems_next {t : List Char} {d : Data} {ds : List Data} (gap : Gap)
    (item : readValue fuel depth t = (d, some (gap.blanks ++ ',' :: r)))
    (others : readItems fuel depth r = (ds, some s)) :
    readItems (fuel + 1) depth t = (d :: ds, some s) := by
  rw [readItems, item]
  simp only [skipBlanks_gap, skipBlanks_cons (show isBlank ',' = false by decide), others]

variable (before between after : Gap) (l : Literal)

theorem readMembers_last {t : List Char} {d : Data}
    (item : readValue fuel depth t = (d, some (after.blanks ++ '}' :: s))) :
    readMembers (fuel + 1) depth (before.blanks ++ (l.text ++ (between.blanks ++ ':' :: t))) =
      ([(l.content, d)], some s) := by
  have name := readString_literal l (between.blanks ++ ':' :: t)
  rw [readMembers, skipBlanks_gap, Literal.text, List.append_assoc, List.cons_append,
    List.singleton_append, skipBlanks_cons (by decide)]
  simp only [name, skipBlanks_gap, skipBlanks_cons (show isBlank ':' = false by decide), item,
    skipBlanks_cons (show isBlank '}' = false by decide)]

theorem readMembers_next {t : List Char} {d : Data} {ds : List (Option String × Data)}
    (item : readValue fuel depth t = (d, some (after.blanks ++ ',' :: r)))
    (others : readMembers fuel depth r = (ds, some s)) :
    readMembers (fuel + 1) depth (before.blanks ++ (l.text ++ (between.blanks ++ ':' :: t))) =
      ((l.content, d) :: ds, some s) := by
  have name := readString_literal l (between.blanks ++ ':' :: t)
  rw [readMembers, skipBlanks_gap, Literal.text, List.append_assoc, List.cons_append,
    List.singleton_append, skipBlanks_cons (by decide)]
  simp only [name, skipBlanks_gap, skipBlanks_cons (show isBlank ':' = false by decide), item,
    skipBlanks_cons (show isBlank ',' = false by decide), others]

end Steps

def Script.itemsFrom : List Element → List Char
  | [] => [']']
  | e :: rest => e.text ++ Script.itemsText rest

def Script.membersFrom : List Member → List Char
  | [] => ['}']
  | m :: rest => m.text ++ Script.membersText rest

theorem skipBlanks_items (e : Element) (rest : List Element) (s : List Char) :
    ∃ c t, skipBlanks (Script.itemsFrom (e :: rest) ++ s) = c :: t ∧ c ≠ ']' := by
  obtain ⟨before, v, after⟩ := e
  obtain ⟨c, t, first, visible, inside, -⟩ := v.text_head
  refine ⟨c, t ++ (after.blanks ++ (Script.itemsText rest ++ s)), ?_, inside⟩
  simp only [Script.itemsFrom, Element.text, List.append_assoc, skipBlanks_gap, first,
    List.cons_append, skipBlanks_cons visible]

theorem skipBlanks_members (m : Member) (rest : List Member) (s : List Char) :
    ∃ c t, skipBlanks (Script.membersFrom (m :: rest) ++ s) = c :: t ∧ c ≠ '}' := by
  obtain ⟨before, name, between, e⟩ := m
  refine ⟨'"', name.glyphs.flatMap Glyph.text ++ '"' :: (between.blanks ++ ':' :: (e.text ++
    (Script.membersText rest ++ s))), ?_, by decide⟩
  simp only [Script.membersFrom, Member.text, Literal.text, List.append_assoc, skipBlanks_gap,
    List.cons_append, List.nil_append, skipBlanks_cons (show isBlank '"' = false by decide)]

theorem exists_step {fuel : Nat} {v : Script} (enough : 2 * v.text.length ≤ fuel) :
    ∃ left, fuel = left + 1 := by
  obtain ⟨c, t, first, -⟩ := v.text_head
  rw [first, List.length_cons] at enough
  exact ⟨fuel - 1, by omega⟩

mutual

/-- A value is read from its text, and what follows the text stays. Of the steps of the descent two
are allowed for every character. -/
theorem Script.readValue_text (depth : Nat) : (v : Script) → ∀ fuel s, 2 * v.text.length ≤ fuel →
    EndsNumber s → readValue fuel depth (v.text ++ s) = (v.data depth, some s)
  | .null, fuel, s, enough, _ => by
    obtain ⟨left, rfl⟩ := exists_step enough
    rfl
  | .bool b, fuel, s, enough, _ => by
    obtain ⟨left, rfl⟩ := exists_step enough
    cases b <;> rfl
  | .number n, fuel, s, enough, ends => by
    obtain ⟨left, rfl⟩ := exists_step enough
    exact readValue_number n ends left depth
  | .string l, fuel, s, enough, _ => by
    obtain ⟨left, rfl⟩ := exists_step enough
    exact readValue_literal l s left depth
  | .list gap [], fuel, s, enough, _ => by
    obtain ⟨left, rfl⟩ := exists_step enough
    rw [Script.text, List.cons_append, List.cons_append, List.append_assoc, List.singleton_append,
      readValue, skipBlanks_cons (by decide)]
    simp only [skipBlanks_gap, skipBlanks_cons (show isBlank ']' = false by decide)]
    rfl
  | .list _ (e :: rest), fuel, s, enough, _ => by
    obtain ⟨left, rfl⟩ := exists_step enough
    have inner : 2 * (Script.itemsFrom (e :: rest)).length ≤ left := by
      simp only [Script.text, Script.itemsFrom, List.length_append, List.length_cons] at enough ⊢
      omega
    have items := Script.readItems_text (depth + 1) (e :: rest) (List.cons_ne_nil e rest) left s
      inner
    obtain ⟨c, t, first, inside⟩ := skipBlanks_items e rest s
    exact readValue_list first inside items
  | .record gap [], fuel, s, enough, _ => by
    obtain ⟨left, rfl⟩ := exists_step enough
    rw [Script.text, List.cons_append, List.cons_append, List.append_assoc, List.singleton_append,
      readValue, skipBlanks_cons (by decide)]
    simp only [skipBlanks_gap, skipBlanks_cons (show isBlank '}' = false by decide)]
    rfl
  | .record _ (m :: rest), fuel, s, enough, _ => by
    obtain ⟨left, rfl⟩ := exists_step enough
    have inner : 2 * (Script.membersFrom (m :: rest)).length ≤ left := by
      simp only [Script.text, Script.membersFrom, List.length_append, List.length_cons] at enough ⊢
      omega
    have members := Script.readMembers_text (depth + 1) (m :: rest) (List.cons_ne_nil m rest) left s
      inner
    obtain ⟨c, t, first, inside⟩ := skipBlanks_members m rest s
    exact readValue_record first inside members

theorem Script.readItems_text (depth : Nat) : (items : List Element) → items ≠ [] → ∀ fuel s,
    2 * (Script.itemsFrom items).length ≤ fuel →
      readItems fuel depth (Script.itemsFrom items ++ s) = (Script.itemsData depth items, some s)
  | [], filled, _, _, _ => absurd rfl filled
  | [⟨before, v, after⟩], _, fuel, s, enough => by
    simp only [Script.itemsFrom, Element.text, Script.itemsText, List.length_append,
      List.length_singleton] at enough
    obtain ⟨left, rfl⟩ : ∃ left, fuel = left + 1 := ⟨fuel - 1, by omega⟩
    have item := Script.readValue_text depth v left (after.blanks ++ ']' :: s) (by omega)
      (endsNumber_gap after (endsNumber_cons s (by decide)))
    have read := readItems_last after item
    rw [← readItems_skip, ← skipBlanks_gap before, readItems_skip] at read
    simp only [Script.itemsFrom, Element.text, Script.itemsText, List.append_assoc]
    exact read
  | ⟨before, v, after⟩ :: f :: rest, _, fuel, s, enough => by
    simp only [Script.itemsFrom, Element.text, Script.itemsText, List.length_append,
      List.length_cons] at enough
    obtain ⟨left, rfl⟩ : ∃ left, fuel = left + 1 := ⟨fuel - 1, by omega⟩
    have item := Script.readValue_text depth v left
      (after.blanks ++ ',' :: (Script.itemsFrom (f :: rest) ++ s)) (by omega)
      (endsNumber_gap after (endsNumber_cons _ (by decide)))
    have inner : 2 * (Script.itemsFrom (f :: rest)).length ≤ left := by
      simp only [Script.itemsFrom, List.length_append]
      omega
    have others := Script.readItems_text depth (f :: rest) (List.cons_ne_nil f rest) left s inner
    have read := readItems_next after item others
    rw [← readItems_skip, ← skipBlanks_gap before, readItems_skip] at read
    simp only [Script.itemsFrom, Element.text, Script.itemsText, List.append_assoc,
      List.cons_append] at read ⊢
    exact read

theorem Script.readMembers_text (depth : Nat) : (members : List Member) → members ≠ [] → ∀ fuel s,
    2 * (Script.membersFrom members).length ≤ fuel →
      readMembers fuel depth (Script.membersFrom members ++ s) =
        (Script.membersData depth members, some s)
  | [], filled, _, _, _ => absurd rfl filled
  | [⟨before, name, between, ⟨before', v, after⟩⟩], _, fuel, s, enough => by
    simp only [Script.membersFrom, Member.text, Element.text, Script.membersText,
      List.length_append, List.length_cons] at enough
    obtain ⟨left, rfl⟩ : ∃ left, fuel = left + 1 := ⟨fuel - 1, by omega⟩
    have item := Script.readValue_text depth v left (after.blanks ++ '}' :: s) (by omega)
      (endsNumber_gap after (endsNumber_cons s (by decide)))
    rw [← readValue_skip, ← skipBlanks_gap before', readValue_skip] at item
    have read := readMembers_last before between after name item
    simp only [Script.membersFrom, Member.text, Element.text, Script.membersText,
      List.append_assoc, List.cons_append, List.nil_append]
    exact read
  | ⟨before, name, between, ⟨before', v, after⟩⟩ :: n :: rest, _, fuel, s, enough => by
    simp only [Script.membersFrom, Member.text, Element.text, Script.membersText,
      List.length_append, List.length_cons] at enough
    obtain ⟨left, rfl⟩ : ∃ left, fuel = left + 1 := ⟨fuel - 1, by omega⟩
    have item := Script.readValue_text depth v left
      (after.blanks ++ ',' :: (Script.membersFrom (n :: rest) ++ s)) (by omega)
      (endsNumber_gap after (endsNumber_cons _ (by decide)))
    rw [← readValue_skip, ← skipBlanks_gap before', readValue_skip] at item
    have inner : 2 * (Script.membersFrom (n :: rest)).length ≤ left := by
      simp only [Script.membersFrom, List.length_append]
      omega
    have others := Script.readMembers_text depth (n :: rest) (List.cons_ne_nil n rest) left s inner
    have read := readMembers_next before between after name item others
    simp only [Script.membersFrom, Member.text, Element.text, Script.membersText,
      List.append_assoc, List.cons_append] at read ⊢
    exact read

end

theorem Element.read_text (e : Element) :
    ∃ rest, read e.text = (e.data 0, some rest) ∧ ends (some rest) = true := by
  obtain ⟨before, v, after⟩ := e
  have closes : EndsNumber after.blanks := by
    simpa using endsNumber_gap after endsNumber_nil
  have whole := Script.readValue_text 0 v (2 * (Element.mk before v after).text.length + 2)
    after.blanks (by simp only [Element.text, List.length_append]; omega) closes
  rw [← readValue_skip, ← skipBlanks_gap before, readValue_skip] at whole
  have finished : skipBlanks after.blanks = [] := List.dropWhile_eq_nil_iff.2 after.blank
  exact ⟨after.blanks, whole, by rw [ends, finished]; rfl⟩

section Depth

theorem nested_allowed {depth : Nat} (h : depth < 128) (d : Data) : nested depth d = d := by
  rw [nested, if_neg]
  omega

theorem nested_beyond {depth : Nat} (h : 128 ≤ depth) (d : Data) : nested depth d = .deep d :=
  if_pos h

theorem intact_nested (depth : Nat) (d : Data) : (nested depth d).intact = d.intact := by
  by_cases h : 128 ≤ depth
  · rw [nested_beyond h, Data.intact]
  · rw [nested_allowed (by omega)]

theorem Script.data_list (gap : Gap) (items : List Element) {depth : Nat} (h : depth < 127) :
    (Script.list gap items).data depth = .list (Script.itemsData (depth + 1) items) true := by
  rw [Script.data, nested_allowed (by omega)]

theorem Script.data_record (gap : Gap) (members : List Member) {depth : Nat} (h : depth < 127) :
    (Script.record gap members).data depth =
      .record (Script.membersData (depth + 1) members) true := by
  rw [Script.data, nested_allowed (by omega)]

theorem Script.of_data_list {v : Script} {depth : Nat} {ds : List Data} {closed : Bool}
    (h : v.data depth = .list ds closed) :
    depth < 127 ∧ closed = true ∧
      ∃ gap items, v = .list gap items ∧ ds = Script.itemsData (depth + 1) items := by
  cases v with
  | list gap items =>
    by_cases within : depth < 127
    · rw [Script.data_list gap items within] at h
      cases h
      exact ⟨within, rfl, gap, items, rfl, rfl⟩
    · rw [Script.data, nested_beyond (by omega)] at h
      cases h
  | record gap members =>
    rw [Script.data, nested] at h
    split at h <;> cases h
  | _ => cases h

theorem Script.of_data_record {v : Script} {depth : Nat} {ds : List (Option String × Data)}
    {closed : Bool} (h : v.data depth = .record ds closed) :
    depth < 127 ∧ closed = true ∧
      ∃ gap members, v = .record gap members ∧ ds = Script.membersData (depth + 1) members := by
  cases v with
  | record gap members =>
    by_cases within : depth < 127
    · rw [Script.data_record gap members within] at h
      cases h
      exact ⟨within, rfl, gap, members, rfl, rfl⟩
    · rw [Script.data, nested_beyond (by omega)] at h
      cases h
  | list gap items =>
    rw [Script.data, nested] at h
    split at h <;> cases h
  | _ => cases h

mutual

theorem Script.data_intact (depth : Nat) : (v : Script) → (v.data depth).intact = true
  | .null | .bool _ | .number _ | .string _ => rfl
  | .list _ items => by
    rw [Script.data, intact_nested, Data.intact, Script.itemsData_intact (depth + 1) items]
    rfl
  | .record _ members => by
    rw [Script.data, intact_nested, Data.intact, Script.membersData_intact (depth + 1) members]
    rfl

theorem Script.itemsData_intact (depth : Nat) : (items : List Element) →
    Data.itemsIntact (Script.itemsData depth items) = true
  | [] => rfl
  | ⟨_, v, _⟩ :: rest => by
    rw [Script.itemsData, Data.itemsIntact, Element.data, Script.data_intact depth v,
      Script.itemsData_intact depth rest]
    rfl

theorem Script.membersData_intact (depth : Nat) : (members : List Member) →
    Data.membersIntact (Script.membersData depth members) = true
  | [] => rfl
  | ⟨_, _, _, ⟨_, v, _⟩⟩ :: rest => by
    rw [Script.membersData, Member.data, Data.membersIntact, Element.data,
      Script.data_intact depth v, Script.membersData_intact depth rest]
    rfl

end

mutual

theorem Script.data_allowed (deep shallow : Nat) (h : shallow ≤ deep) : (v : Script) →
    deep + v.depth ≤ 127 → v.data shallow = v.data deep
  | .null, _ | .bool _, _ | .number _, _ | .string _, _ => rfl
  | .list _ items, within => by
    rw [Script.depth] at within
    rw [Script.data, Script.data, nested_allowed (by omega), nested_allowed (by omega),
      Script.itemsData_allowed (deep + 1) (shallow + 1) (by omega) items (by omega)]
  | .record _ members, within => by
    rw [Script.depth] at within
    rw [Script.data, Script.data, nested_allowed (by omega), nested_allowed (by omega),
      Script.membersData_allowed (deep + 1) (shallow + 1) (by omega) members (by omega)]

theorem Script.itemsData_allowed (deep shallow : Nat) (h : shallow ≤ deep) :
    (items : List Element) → deep + Script.itemsDepth items ≤ 127 →
      Script.itemsData shallow items = Script.itemsData deep items
  | [], _ => rfl
  | ⟨_, v, _⟩ :: rest, within => by
    rw [Script.itemsDepth, Element.depth] at within
    rw [Script.itemsData, Script.itemsData, Element.data, Element.data,
      Script.data_allowed deep shallow h v (by omega),
      Script.itemsData_allowed deep shallow h rest (by omega)]

theorem Script.membersData_allowed (deep shallow : Nat) (h : shallow ≤ deep) :
    (members : List Member) → deep + Script.membersDepth members ≤ 127 →
      Script.membersData shallow members = Script.membersData deep members
  | [], _ => rfl
  | ⟨_, _, _, ⟨_, v, _⟩⟩ :: rest, within => by
    rw [Script.membersDepth, Member.depth, Element.depth] at within
    rw [Script.membersData, Script.membersData, Member.data, Member.data, Element.data,
      Element.data, Script.data_allowed deep shallow h v (by omega),
      Script.membersData_allowed deep shallow h rest (by omega)]

end

mutual

/-- What can be used at some depth stands for the same data further out. -/
theorem Script.data_of_clean (deep shallow : Nat) (h : shallow ≤ deep) : (v : Script) →
    (v.data deep).clean = true → v.data shallow = v.data deep
  | .null, _ | .bool _, _ | .number _, _ | .string _, _ => rfl
  | .list _ items, clean => by
    rw [Script.data] at clean
    by_cases beyond : 128 ≤ deep + 1
    · rw [nested_beyond beyond] at clean
      cases clean
    · rw [nested_allowed (by omega), Data.clean, Bool.true_and] at clean
      rw [Script.data, Script.data, nested_allowed (by omega), nested_allowed (by omega),
        Script.itemsData_of_clean (deep + 1) (shallow + 1) (by omega) items clean]
  | .record _ members, clean => by
    rw [Script.data] at clean
    by_cases beyond : 128 ≤ deep + 1
    · rw [nested_beyond beyond] at clean
      cases clean
    · rw [nested_allowed (by omega), Data.clean, Bool.true_and] at clean
      rw [Script.data, Script.data, nested_allowed (by omega), nested_allowed (by omega),
        Script.membersData_of_clean (deep + 1) (shallow + 1) (by omega) members clean]

theorem Script.itemsData_of_clean (deep shallow : Nat) (h : shallow ≤ deep) :
    (items : List Element) → Data.itemsClean (Script.itemsData deep items) = true →
      Script.itemsData shallow items = Script.itemsData deep items
  | [], _ => rfl
  | ⟨_, v, _⟩ :: rest, clean => by
    rw [Script.itemsData, Element.data, Data.itemsClean, Bool.and_eq_true] at clean
    rw [Script.itemsData, Script.itemsData, Element.data, Element.data,
      Script.data_of_clean deep shallow h v clean.1,
      Script.itemsData_of_clean deep shallow h rest clean.2]

theorem Script.membersData_of_clean (deep shallow : Nat) (h : shallow ≤ deep) :
    (members : List Member) → Data.membersClean (Script.membersData deep members) = true →
      Script.membersData shallow members = Script.membersData deep members
  | [], _ => rfl
  | ⟨_, _, _, ⟨_, v, _⟩⟩ :: rest, clean => by
    rw [Script.membersData, Member.data, Element.data, Data.membersClean, Bool.and_eq_true,
      Bool.and_eq_true] at clean
    rw [Script.membersData, Script.membersData, Member.data, Member.data, Element.data,
      Element.data, Script.data_of_clean deep shallow h v clean.1.2,
      Script.membersData_of_clean deep shallow h rest clean.2]

end

end Depth

end MutantSieve.Json
