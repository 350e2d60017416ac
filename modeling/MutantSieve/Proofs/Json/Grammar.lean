import MutantSieve.Proofs.Json.Script

/-!
# What is read is of the grammar

Where a reader comes to the end of what it reads, the text up to there is one of the grammar, and
the data are those that its parts stand for. So a text is read to its end just when it is a value
with blanks around it.
-/

set_option autoImplicit false

namespace MutantSieve.Json

section Strings

theorem isHexDigit_of_hexValue {c : Char} {n : Nat} (h : hexValue? c = some n) :
    isHexDigit c = true := by
  have codes : isHexDigit c = true ↔ Text.isDigit c = true ∨ (97 ≤ c.toNat ∧ c.toNat ≤ 102) ∨
      (65 ≤ c.toNat ∧ c.toNat ≤ 70) := by
    rw [isHexDigit, Bool.or_eq_true, Bool.or_eq_true, decide_eq_true_eq, decide_eq_true_eq,
      or_assoc]
    rfl
  rw [codes]
  by_contra none
  simp only [not_or] at none
  rw [hexValue?, if_neg none.1, if_neg none.2.1, if_neg none.2.2] at h
  cases h

theorem isHexDigit_of_fold {cs : List Char} {start n : Nat}
    (h : cs.foldlM (fun n c => (hexValue? c).map fun d => 16 * n + d) start = some n) :
    ∀ c ∈ cs, isHexDigit c = true := by
  induction cs generalizing start with
  | nil => simp
  | cons c cs ih =>
    rw [List.foldlM_cons] at h
    cases value : hexValue? c with
    | none =>
      rw [value] at h
      cases h
    | some d =>
      rw [value] at h
      exact List.forall_mem_cons.mpr ⟨isHexDigit_of_hexValue value, ih h⟩

theorem known_of_shortEscape {e c : Char} (h : shortEscape? e = some c) :
    e ∈ ['"', '\\', '/', 'b', 'f', 'n', 'r', 't'] := by
  by_contra unknown
  simp only [List.mem_cons, List.not_mem_nil, or_false, not_or] at unknown
  simp [shortEscape?, unknown] at h

theorem of_readPieces {s r : List Char} {ps : List Piece} (h : readPieces s = some (ps, r)) :
    ∃ gs : List Glyph, s = gs.flatMap Glyph.text ++ '"' :: r ∧ gs.map Glyph.piece = ps := by
  fun_induction readPieces s generalizing ps with
  | case1 => cases h
  | case2 s =>
    cases h
    exact ⟨[], rfl, rfl⟩
  | case3 a b c d s n code ih =>
    obtain ⟨⟨ps, r⟩, read, same⟩ := Option.map_eq_some_iff.mp h
    cases same
    obtain ⟨gs, text, pieces⟩ := ih read
    refine ⟨.code a b c d (isHexDigit_of_fold code) :: gs, ?_, ?_⟩
    · rw [text]
      rfl
    · rw [List.map_cons, pieces, Glyph.piece, code]
      rfl
  | case4 => cases h
  | case5 e s long c short ih =>
    obtain ⟨⟨ps, r⟩, read, same⟩ := Option.map_eq_some_iff.mp h
    cases same
    obtain ⟨gs, text, pieces⟩ := ih read
    refine ⟨.short e (known_of_shortEscape short) :: gs, ?_, ?_⟩
    · rw [text]
      rfl
    · rw [List.map_cons, pieces, Glyph.piece, short]
      rfl
  | case6 => cases h
  | case7 => cases h
  | case8 c s quote long short visible ih =>
    obtain ⟨⟨ps, r⟩, read, same⟩ := Option.map_eq_some_iff.mp h
    cases same
    obtain ⟨gs, text, pieces⟩ := ih read
    rw [not_or] at visible
    refine ⟨.plain c (by omega) quote visible.2 :: gs, ?_, ?_⟩
    · rw [text]
      rfl
    · rw [List.map_cons, pieces]
      rfl

theorem of_readString {s r : List Char} {content : Option String}
    (h : readString s = some (content, r)) :
    ∃ l : Literal, '"' :: s = l.text ++ r ∧ l.content = content := by
  obtain ⟨⟨ps, r⟩, read, same⟩ := Option.map_eq_some_iff.mp h
  cases same
  obtain ⟨gs, text, pieces⟩ := of_readPieces read
  refine ⟨⟨gs⟩, ?_, ?_⟩
  · rw [text, Literal.text, List.append_assoc, List.cons_append, List.singleton_append]
  · rw [Literal.content, pieces]

end Strings

section Numbers

variable {s r : List Char}

theorem of_readDigitRun {ds : List Char} (h : readDigitRun s = some (ds, r)) :
    IsRun ds ∧ s = ds ++ r := by
  unfold readDigitRun at h
  split at h
  · cases h
  · rename_i filled
    cases h
    refine ⟨⟨filled, ?_⟩, List.takeWhile_append_dropWhile.symm⟩
    exact fun c inside => List.mem_takeWhile_imp inside

theorem of_readFraction {fraction : Option (List Char)} (h : readFraction s = some (fraction, r)) :
    (∀ ds ∈ fraction, IsRun ds) ∧ s = Number.fractionText fraction ++ r := by
  unfold readFraction at h
  split at h
  · obtain ⟨⟨ds, r⟩, read, same⟩ := Option.map_eq_some_iff.mp h
    cases same
    obtain ⟨run, text⟩ := of_readDigitRun read
    refine ⟨?_, ?_⟩
    · intro ds' same
      cases same
      exact run
    · rw [text]
      rfl
  · cases h
    exact ⟨by simp, rfl⟩

theorem of_readExponentDigits {down : Bool} {exponent : Option (Bool × List Char)}
    (h : readExponentDigits down s = some (exponent, r)) :
    ∃ ds, exponent = some (down, ds) ∧ (∀ e ∈ exponent, IsRun e.2) ∧ s = ds ++ r := by
  obtain ⟨⟨ds, r⟩, read, same⟩ := Option.map_eq_some_iff.mp h
  cases same
  obtain ⟨run, text⟩ := of_readDigitRun read
  refine ⟨ds, rfl, ?_, text⟩
  intro e inside
  cases inside
  exact run

theorem of_readExponent {exponent : Option (Bool × List Char)}
    (h : readExponent s = some (exponent, r)) :
    (∀ e ∈ exponent, IsRun e.2) ∧
      ∃ capital plus, s = Number.exponentText capital plus exponent ++ r := by
  unfold readExponent at h
  split at h
  case h_7 =>
    cases h
    exact ⟨by simp, false, false, rfl⟩
  all_goals
    obtain ⟨ds, rfl, runs, rfl⟩ := of_readExponentDigits h
    refine ⟨runs, ?_⟩
  case h_1 => exact ⟨false, true, rfl⟩
  case h_2 => exact ⟨true, true, rfl⟩
  case h_3 => exact ⟨false, false, rfl⟩
  case h_4 => exact ⟨true, false, rfl⟩
  case h_5 => exact ⟨false, false, rfl⟩
  case h_6 => exact ⟨true, false, rfl⟩

theorem of_readUnsigned {negative : Bool} {p : Parts} (h : readUnsigned negative s = some (p, r)) :
    ∃ n : Number, n.parts = p ∧ p.negative = negative ∧ s = n.unsigned ++ r := by
  simp only [readUnsigned, Option.bind_eq_bind, Option.bind_eq_some_iff] at h
  obtain ⟨⟨whole, t⟩, first, others⟩ := h
  split at others
  · cases others
  rename_i single
  simp only [Option.bind_eq_some_iff] at others
  obtain ⟨⟨fraction, t'⟩, second, ⟨exponent, t''⟩, third, same⟩ := others
  cases same
  obtain ⟨run, rfl⟩ := of_readDigitRun first
  obtain ⟨fractionRuns, rfl⟩ := of_readFraction second
  obtain ⟨exponentRuns, capital, plus, rfl⟩ := of_readExponent third
  have leading : whole.head? = some '0' → whole.length = 1 := by
    intro zero
    by_contra long
    exact single ⟨zero, long⟩
  refine ⟨⟨⟨negative, whole, fraction, exponent⟩, capital, plus, run, leading, fractionRuns,
    exponentRuns⟩, rfl, rfl, ?_⟩
  rw [Number.unsigned, List.append_assoc, List.append_assoc]

theorem of_readNumber {p : Parts} (h : readNumber s = some (p, r)) :
    ∃ n : Number, n.parts = p ∧ s = n.text ++ r := by
  unfold readNumber at h
  split at h
  · obtain ⟨n, rfl, negative, rfl⟩ := of_readUnsigned h
    exact ⟨n, rfl, by rw [Number.text, if_pos negative]; rfl⟩
  · obtain ⟨n, rfl, negative, rfl⟩ := of_readUnsigned h
    exact ⟨n, rfl, by rw [Number.text, if_neg (by simp [negative])]⟩

end Numbers

section Values

variable {s r : List Char}

theorem exists_gap (s : List Char) : ∃ gap : Gap, s = gap.blanks ++ skipBlanks s :=
  ⟨⟨s.takeWhile isBlank, fun _ inside => List.mem_takeWhile_imp inside⟩,
    List.takeWhile_append_dropWhile.symm⟩

theorem of_readScalar {d : Data} (h : readScalar s = (d, some r)) :
    ∃ v : Script, s = v.text ++ r ∧ ∀ depth, d = v.data depth := by
  unfold readScalar at h
  split at h
  · cases h
    exact ⟨.null, rfl, fun _ => rfl⟩
  · cases h
    exact ⟨.bool true, rfl, fun _ => rfl⟩
  · cases h
    exact ⟨.bool false, rfl, fun _ => rfl⟩
  · split at h
    · rename_i read
      cases h
      obtain ⟨l, text, rfl⟩ := of_readString read
      exact ⟨.string l, text, fun _ => rfl⟩
    · cases h
  · split at h
    · rename_i read
      cases h
      obtain ⟨n, rfl, text⟩ := of_readNumber read
      exact ⟨.number n, text, fun _ => rfl⟩
    · cases h

/-- What a reader of values comes to the end of is a value behind a gap. -/
def ReadsValues (fuel : Nat) : Prop :=
  ∀ depth s d r, readValue fuel depth s = (d, some r) →
    ∃ (gap : Gap) (v : Script), s = gap.blanks ++ (v.text ++ r) ∧ d = v.data depth

def ReadsItems (fuel : Nat) : Prop :=
  ∀ depth s ds r, readItems fuel depth s = (ds, some r) →
    ∃ e es, s = Script.itemsFrom (e :: es) ++ r ∧ ds = Script.itemsData depth (e :: es)

def ReadsMembers (fuel : Nat) : Prop :=
  ∀ depth s ds r, readMembers fuel depth s = (ds, some r) →
    ∃ m ms, s = Script.membersFrom (m :: ms) ++ r ∧ ds = Script.membersData depth (m :: ms)

theorem ReadsItems.list {fuel : Nat} (items : ReadsItems fuel) {depth : Nat} {s t r : List Char}
    {ds : List Data} {gap : Gap} (front : s = gap.blanks ++ '[' :: t)
    (read : readItems fuel depth (skipBlanks t) = (ds, some r)) :
    ∃ es, s = gap.blanks ++ ((Script.list .none es).text ++ r) ∧
      ds = Script.itemsData depth es := by
  rw [readItems_skip] at read
  obtain ⟨e, es, text, data⟩ := items _ _ _ _ read
  exact ⟨e :: es, by rw [front, text]; rfl, data⟩

theorem ReadsMembers.record {fuel : Nat} (members : ReadsMembers fuel) {depth : Nat}
    {s t r : List Char} {ds : List (Option String × Data)} {gap : Gap}
    (front : s = gap.blanks ++ '{' :: t)
    (read : readMembers fuel depth (skipBlanks t) = (ds, some r)) :
    ∃ ms, s = gap.blanks ++ ((Script.record .none ms).text ++ r) ∧
      ds = Script.membersData depth ms := by
  rw [readMembers_skip] at read
  obtain ⟨m, ms, text, data⟩ := members _ _ _ _ read
  exact ⟨m :: ms, by rw [front, text]; rfl, data⟩

theorem readsValues_succ {fuel : Nat} (items : ReadsItems fuel) (members : ReadsMembers fuel) :
    ReadsValues (fuel + 1) := by
  intro depth s d r h
  obtain ⟨gap, front⟩ := exists_gap s
  rw [readValue] at h
  split at h
  · rename_i t first
    obtain ⟨inner, rest⟩ := exists_gap t
    rw [first] at front
    split at h
    · rename_i last
      cases h
      rw [last] at rest
      exact ⟨gap, .list inner [], by rw [front, rest]; simp [Script.text], rfl⟩
    · cases read : readItems fuel (depth + 1) (skipBlanks t) with
      | mk ds left =>
        simp only [read] at h
        cases h
        obtain ⟨es, text, rfl⟩ := items.list front read
        exact ⟨gap, .list .none es, text, rfl⟩
  · rename_i t first
    obtain ⟨inner, rest⟩ := exists_gap t
    rw [first] at front
    split at h
    · rename_i last
      cases h
      rw [last] at rest
      exact ⟨gap, .record inner [], by rw [front, rest]; simp [Script.text], rfl⟩
    · cases read : readMembers fuel (depth + 1) (skipBlanks t) with
      | mk ds left =>
        simp only [read] at h
        cases h
        obtain ⟨ms, text, rfl⟩ := members.record front read
        exact ⟨gap, .record .none ms, text, rfl⟩
  · obtain ⟨v, text, data⟩ := of_readScalar h
    exact ⟨gap, v, by rw [← text]; exact front, data depth⟩

theorem readsItems_succ {fuel : Nat} (values : ReadsValues fuel) (items : ReadsItems fuel) :
    ReadsItems (fuel + 1) := by
  intro depth s ds r h
  rw [readItems] at h
  split at h
  · cases h
  rename_i d t read
  obtain ⟨before, v, text, rfl⟩ := values _ _ _ _ read
  obtain ⟨after, rest⟩ := exists_gap t
  split at h
  · rename_i last
    cases h
    refine ⟨⟨before, v, after⟩, [], ?_, rfl⟩
    rw [text, rest, last]
    simp [Script.itemsFrom, Script.itemsText, Element.text]
  · rename_i t' next
    cases others : readItems fuel depth t' with
    | mk ds left =>
      simp only [others] at h
      cases h
      obtain ⟨e, es, texts, rfl⟩ := items _ _ _ _ others
      refine ⟨⟨before, v, after⟩, e :: es, ?_, rfl⟩
      rw [text, rest, next, texts]
      simp [Script.itemsFrom, Script.itemsText, Element.text]
  · cases h

theorem readsMembers_succ {fuel : Nat} (values : ReadsValues fuel) (members : ReadsMembers fuel) :
    ReadsMembers (fuel + 1) := by
  intro depth s ds r h
  obtain ⟨before, front⟩ := exists_gap s
  rw [readMembers] at h
  split at h
  case h_2 => cases h
  rename_i t first
  split at h
  · cases h
  rename_i content t name
  obtain ⟨l, spelling, rfl⟩ := of_readString name
  obtain ⟨between, colon⟩ := exists_gap t
  split at h
  case h_2 => cases h
  rename_i t' second
  rw [second] at colon
  split at h
  · cases h
  rename_i d t'' read
  obtain ⟨margin, v, text, rfl⟩ := values _ _ _ _ read
  obtain ⟨after, rest⟩ := exists_gap t''
  have start : s = before.blanks ++ (l.text ++ (between.blanks ++ ':' :: (margin.blanks ++
      (v.text ++ (after.blanks ++ skipBlanks t''))))) := by
    rw [front, first, spelling, colon, text, ← rest]
  split at h
  · rename_i last
    cases h
    refine ⟨⟨before, l, between, ⟨margin, v, after⟩⟩, [], ?_, rfl⟩
    rw [start, last]
    simp [Script.membersFrom, Script.membersText, Member.text, Element.text]
  · rename_i t₃ next
    cases others : readMembers fuel depth t₃ with
    | mk ds left =>
      simp only [others] at h
      cases h
      obtain ⟨m, ms, texts, rfl⟩ := members _ _ _ _ others
      refine ⟨⟨before, l, between, ⟨margin, v, after⟩⟩, m :: ms, ?_, rfl⟩
      rw [start, next, texts]
      simp [Script.membersFrom, Script.membersText, Member.text, Element.text]
  · cases h

theorem readers_of_grammar (fuel : Nat) :
    ReadsValues fuel ∧ ReadsItems fuel ∧ ReadsMembers fuel := by
  induction fuel with
  | zero =>
    refine ⟨?_, ?_, ?_⟩ <;> (intro depth s d r h; cases h)
  | succ fuel ih =>
    obtain ⟨values, items, members⟩ := ih
    exact ⟨readsValues_succ items members, readsItems_succ values items,
      readsMembers_succ values members⟩

/-- A text is read to its end just when it is a value with blanks around it. -/
theorem ends_read_iff (s : List Char) : ends (read s).2 = true ↔ ∃ e : Element, e.text = s := by
  constructor
  · intro complete
    cases whole : read s with
    | mk d left =>
      rw [whole] at complete
      cases left with
      | none => cases complete
      | some r =>
        obtain ⟨before, v, text, -⟩ := (readers_of_grammar _).1 _ _ _ _ whole
        obtain ⟨after, rest⟩ := exists_gap r
        have finished : skipBlanks r = [] := List.isEmpty_iff.mp complete
        rw [finished, List.append_nil] at rest
        exact ⟨⟨before, v, after⟩, by rw [text, rest]; rfl⟩
  · rintro ⟨e, rfl⟩
    obtain ⟨rest, whole, complete⟩ := e.read_text
    rw [whole]
    exact complete

end Values

end MutantSieve.Json
