import Mathlib.Data.List.Forall2
import MutantSieve.Proofs.Blank
import MutantSieve.Proofs.SettingOrder

/-!
# Texts of settings

A setting is written as an optional sign and a name, with blanks in front of the sign, between the
two and behind the name. Every such text is read and no other is. A list of texts is read entry by
entry, without the blank ones, and the settings that can come of it are read again from the texts
that they are displayed as.
-/

set_option autoImplicit false

namespace MutantSieve

namespace Setting

def NameChar (c : Char) : Prop :=
  ('A' ≤ c ∧ c ≤ 'Z') ∨ ('a' ≤ c ∧ c ≤ 'z') ∨ ('0' ≤ c ∧ c ≤ '9') ∨ c = '_'

def WellNamed (s : Setting) : Prop := s.name ≠ "" ∧ ∀ c ∈ s.name.toList, NameChar c

inductive Sign : List Char → Bool → Prop
  | absent : Sign [] true
  | plus : Sign ['+'] true
  | minus : Sign ['-'] false

def LeftOf (s : Setting) (text : List Char) : Prop :=
  ∃ sign body, Text.trim text = sign ++ body ∧ Sign sign s.enabled ∧
    Text.trim body = s.name.toList

/-- The name alone or behind a sign, with blanks anywhere around the two. -/
inductive Written (s : Setting) : List Char → Prop
  | plain {before after : List Char} (front : Text.AllBlank before) (back : Text.AllBlank after)
      (on : s.enabled = true) : Written s (before ++ s.name.toList ++ after)
  | signed {before between after : List Char} {sign : Char} (front : Text.AllBlank before)
      (middle : Text.AllBlank between) (back : Text.AllBlank after)
      (marked : Sign [sign] s.enabled) :
      Written s (before ++ (sign :: between ++ s.name.toList) ++ after)

section Names

variable {c : Char} {s : Setting}

theorem isNameChar_iff : isNameChar c = true ↔ NameChar c := by
  have upper : c.isUpper = decide ('A' ≤ c ∧ c ≤ 'Z') := rfl
  have lower : c.isLower = (decide ('a' ≤ c) && decide (c ≤ 'z')) := rfl
  have digit : c.isDigit = (decide ('0' ≤ c) && decide (c ≤ '9')) := rfl
  have letter : c.isAlphanum = (c.isUpper || c.isLower || c.isDigit) := rfl
  simp only [isNameChar, NameChar, letter, upper, lower, digit, Bool.or_eq_true, Bool.and_eq_true,
    decide_eq_true_eq, or_assoc]

theorem NameChar.visible (h : NameChar c) : Text.isBlank c = false ∧ c ≠ '+' ∧ c ≠ '-' := by
  have codes : (65 ≤ c.toNat ∧ c.toNat ≤ 90) ∨ (97 ≤ c.toNat ∧ c.toNat ≤ 122) ∨
      (48 ≤ c.toNat ∧ c.toNat ≤ 57) ∨ c.toNat = 95 := by
    rcases h with h | h | h | rfl
    · exact .inl h
    · exact .inr (.inl h)
    · exact .inr (.inr (.inl h))
    · exact .inr (.inr (.inr rfl))
  refine ⟨?_, ?_, ?_⟩
  · simp only [Text.isBlank, Text.blankRanges, List.any_cons, List.any_nil, Bool.or_eq_false_iff,
      Bool.and_eq_false_iff, decide_eq_false_iff_not, and_true]
    omega
  · rintro rfl
    revert codes
    decide
  · rintro rfl
    revert codes
    decide

end Names

section Reading

variable {s : Setting} {text : List Char}

theorem exists_sign (body : List Char) : ∃ sign rest on, body = sign ++ rest ∧ Sign sign on ∧
    (sign = [] → ∀ c ∈ rest.head?, c ≠ '+' ∧ c ≠ '-') := by
  by_cases plus : body.head? = some '+'
  · refine ⟨['+'], body.tail, true, ?_, .plus, fun none => nomatch none⟩
    exact (List.cons_head?_tail plus).symm
  by_cases minus : body.head? = some '-'
  · refine ⟨['-'], body.tail, false, ?_, .minus, fun none => nomatch none⟩
    exact (List.cons_head?_tail minus).symm
  · refine ⟨[], body, true, rfl, .absent, fun _ c hc => ⟨?_, ?_⟩⟩
    · rintro rfl
      exact plus hc
    · rintro rfl
      exact minus hc

theorem read_of_sign {sign rest : List Char} {on : Bool} (split : Text.trim text = sign ++ rest)
    (marked : Sign sign on) (unsigned : sign = [] → ∀ c ∈ rest.head?, c ≠ '+' ∧ c ≠ '-') :
    read text = if (Text.trim rest).isEmpty || !(Text.trim rest).all isNameChar then none
      else some ⟨String.ofList (Text.trim rest), on⟩ := by
  cases marked with
  | plus => simp [read, split]
  | minus => simp [read, split]
  | absent =>
    have plain := unsigned rfl
    rw [List.nil_append] at split
    cases rest with
    | nil => simp [read, split]
    | cons c rest =>
      have start := plain c rfl
      have off : (some c == some '-') = false := by simpa using start.2
      simp only [read, split, List.head?_cons, off, Bool.not_false]
      split <;> simp_all

theorem wellNamed_iff (name : List Char) (on : Bool) :
    WellNamed ⟨String.ofList name, on⟩ ↔
      (name.isEmpty || !name.all isNameChar) = false := by
  simp [WellNamed, isNameChar_iff]

theorem read_eq_some_iff : read text = some s ↔ s.WellNamed ∧ s.LeftOf text := by
  constructor
  · intro h
    obtain ⟨sign, rest, on, split, marked, unsigned⟩ := exists_sign (Text.trim text)
    rw [read_of_sign split marked unsigned] at h
    by_cases bad : ((Text.trim rest).isEmpty || !(Text.trim rest).all isNameChar) = true
    · rw [if_pos bad] at h
      cases h
    · rw [if_neg bad] at h
      cases h
      exact ⟨(wellNamed_iff _ on).mpr (Bool.eq_false_iff.mpr bad), sign, rest, split, marked,
        by simp⟩
  · rintro ⟨named, sign, rest, split, marked, left⟩
    have unsigned : sign = [] → ∀ c ∈ rest.head?, c ≠ '+' ∧ c ≠ '-' := by
      rintro rfl c hc
      -- Nothing was taken off, so the rest is trimmed already and starts with the name.
      have trimmed : Text.trim rest = rest := by
        rw [List.nil_append] at split
        rw [← split, Text.trim_trim]
      rw [trimmed] at left
      have inside : c ∈ s.name.toList := left ▸ List.mem_of_mem_head? hc
      exact (named.2 c inside).visible.2
    have same : (⟨String.ofList (Text.trim rest), s.enabled⟩ : Setting) = s := by
      rw [left, String.ofList_toList]
    have good := (wellNamed_iff (Text.trim rest) s.enabled).mp (same ▸ named)
    rw [read_of_sign split marked unsigned, if_neg (by simp [good]), same]

end Reading

section Layout

variable {s : Setting} {text : List Char}

theorem WellNamed.filled (h : s.WellNamed) : s.name.toList ≠ [] := by
  simpa using h.1

theorem WellNamed.visible (h : s.WellNamed) : ∀ c ∈ s.name.toList, Text.isBlank c = false :=
  fun c hc => (h.2 c hc).visible.1

theorem Sign.visible {sign : Char} {on : Bool} (h : Sign [sign] on) :
    Text.isBlank sign = false := by
  cases h <;> decide

theorem WellNamed.trim_between (h : s.WellNamed) {before after : List Char}
    (front : Text.AllBlank before) (back : Text.AllBlank after) :
    Text.trim (before ++ s.name.toList ++ after) = s.name.toList :=
  Text.trim_margins front back h.filled (h.visible _ (List.head_mem _))
    (h.visible _ (List.getLast_mem _))

theorem leftOf_iff_written (h : s.WellNamed) : s.LeftOf text ↔ s.Written text := by
  have nothing : Text.AllBlank [] := by simp [Text.AllBlank]
  constructor
  · rintro ⟨sign, body, split, marked, left⟩
    obtain ⟨before, after, whole, front, back⟩ := Text.exists_margins text
    obtain ⟨between, behind, inner, middle, back'⟩ := Text.exists_margins body
    have last : Text.AllBlank (behind ++ after) := List.forall_mem_append.mpr ⟨back', back⟩
    rw [split, inner, left] at whole
    cases sign with
    | nil =>
      have first : Text.AllBlank (before ++ between) := List.forall_mem_append.mpr ⟨front, middle⟩
      have on : s.enabled = true := by
        generalize s.enabled = on at marked
        cases marked
        rfl
      have written := Written.plain first last on
      simpa [whole] using written
    | cons c more =>
      have single : more = [] := by
        generalize s.enabled = on at marked
        cases marked <;> rfl
      subst single
      have written := Written.signed front middle last marked
      simpa [whole] using written
  · intro written
    cases written with
    | @plain before after front back on =>
      refine ⟨[], s.name.toList, h.trim_between front back, on ▸ .absent, ?_⟩
      simpa using h.trim_between nothing nothing
    | @signed before between after sign front middle back marked =>
      have filled : sign :: between ++ s.name.toList ≠ [] := List.cons_ne_nil _ _
      have ends :
          (sign :: between ++ s.name.toList).getLast filled = s.name.toList.getLast h.filled :=
        List.getLast_append_of_ne_nil _ h.filled
      have trimmed := Text.trim_margins front back filled marked.visible
        (ends ▸ h.visible _ (List.getLast_mem _))
      exact ⟨[sign], between ++ s.name.toList, trimmed, marked, by
        simpa using h.trim_between middle nothing⟩

end Layout

section Lists

def Blank (text : String) : Prop := (Text.trim text.toList).isEmpty = true

instance (text : String) : Decidable (Blank text) := inferInstanceAs (Decidable (_ = true))

theorem parse_ok_iff {text : String} {s : Setting} :
    parse text = .ok s ↔ read text.toList = some s := by
  rw [parse]
  cases read text.toList <;> simp

theorem parseAll_blank {text : String} (blank : Blank text) (rest : List String) :
    parseAll (text :: rest) = parseAll rest := by
  rw [parseAll]
  exact if_pos blank

theorem parseAll_filled {text : String} (filled : ¬ Blank text) (rest : List String) :
    parseAll (text :: rest) = do
      let s ← parse text
      let others ← parseAll rest
      return s :: others := by
  rw [parseAll, if_neg (show ¬ (Text.trim text.toList).isEmpty = true from filled)]
  cases parse text with
  | error e => rfl
  | ok s => cases parseAll rest <;> rfl

theorem parseAll_cons_ok_iff {text : String} (filled : ¬ Blank text) (rest : List String)
    (settings : List Setting) :
    parseAll (text :: rest) = .ok settings ↔
      ∃ s others, read text.toList = some s ∧ parseAll rest = .ok others ∧
        settings = s :: others := by
  rw [parseAll_filled filled]
  simp only [← parse_ok_iff]
  cases parse text with
  | error e => simp [bind, Except.bind]
  | ok s => cases parseAll rest <;> simp [bind, Except.bind, pure, Except.pure, eq_comm]

theorem parseAll_eq_mapM (texts : List String) :
    parseAll texts = (texts.filter fun text => decide (¬ Blank text)).mapM parse := by
  induction texts with
  | nil => rfl
  | cons text rest ih =>
    by_cases blank : Blank text
    · rw [parseAll_blank blank, ih, List.filter_cons_of_neg (by simpa using blank)]
    · rw [parseAll_filled blank, ih, List.filter_cons_of_pos (by simpa using blank),
        List.mapM_cons]

theorem parseAll_eq_error_iff {texts : List String} {e : Error} :
    parseAll texts = .error e ↔ ∃ front bad behind, texts = front ++ bad :: behind ∧
      (∀ text ∈ front, Blank text ∨ ∃ s, parse text = .ok s) ∧ ¬ Blank bad ∧
      parse bad = .error e := by
  constructor
  · intro h
    induction texts with
    | nil => cases h
    | cons text rest ih =>
      by_cases blank : Blank text
      · rw [parseAll_blank blank] at h
        obtain ⟨front, bad, behind, rfl, taken, stops⟩ := ih h
        exact ⟨text :: front, bad, behind, rfl, List.forall_mem_cons.mpr ⟨.inl blank, taken⟩, stops⟩
      · rw [parseAll_filled blank] at h
        cases first : parse text with
        | error e' =>
          rw [first] at h
          cases h
          exact ⟨[], text, rest, rfl, by simp, blank, first⟩
        | ok s =>
          have others : parseAll rest = .error e := by
            rw [first] at h
            cases later : parseAll rest <;> rw [later] at h <;> cases h
            rfl
          obtain ⟨front, bad, behind, rfl, taken, stops⟩ := ih others
          exact ⟨text :: front, bad, behind, rfl,
            List.forall_mem_cons.mpr ⟨.inr ⟨s, first⟩, taken⟩, stops⟩
  · rintro ⟨front, bad, behind, rfl, taken, filled, failed⟩
    induction front with
    | nil =>
      rw [List.nil_append, parseAll_filled filled, failed]
      rfl
    | cons text front ih =>
      have later := ih fun t ht => taken t (by simp [ht])
      rw [List.cons_append]
      by_cases blank : Blank text
      · rw [parseAll_blank blank, later]
      · obtain ⟨s, first⟩ := (taken text (by simp)).resolve_left blank
        rw [parseAll_filled blank, first, later]
        rfl

end Lists

section Display

variable {s : Setting} {settings : List Setting}

theorem WellNamed.parse_display (h : s.WellNamed) : parse s.display = .ok s := by
  have nothing : Text.AllBlank [] := by simp [Text.AllBlank]
  have written : s.Written s.display.toList := by
    obtain ⟨name, on⟩ := s
    cases on with
    | true => simpa [display] using Written.signed (s := ⟨name, true⟩) nothing nothing nothing .plus
    | false =>
      simpa [display] using Written.signed (s := ⟨name, false⟩) nothing nothing nothing .minus
  exact parse_ok_iff.mpr (read_eq_some_iff.mpr ⟨h, (leftOf_iff_written h).mpr written⟩)

theorem not_blank_of_parse {text : String} (h : parse text = .ok s) : ¬ Blank text := by
  intro blank
  obtain ⟨named, sign, body, split, -, left⟩ := read_eq_some_iff.mp (parse_ok_iff.mp h)
  rw [List.isEmpty_iff.mp blank] at split
  rw [(List.append_eq_nil_iff.mp split.symm).2] at left
  exact named.filled left.symm

theorem wellNamed_of_parseAll {texts : List String} (h : parseAll texts = .ok settings) :
    ∀ s ∈ settings, s.WellNamed := by
  induction texts generalizing settings with
  | nil =>
    cases h
    simp
  | cons text rest ih =>
    by_cases blank : Blank text
    · rw [parseAll_blank blank] at h
      exact ih h
    · obtain ⟨s, others, readable, parsed, rfl⟩ := (parseAll_cons_ok_iff blank rest settings).mp h
      exact List.forall_mem_cons.mpr ⟨(read_eq_some_iff.mp readable).1, ih parsed⟩

theorem parseAll_display (h : ∀ s ∈ settings, s.WellNamed) :
    parseAll (settings.map display) = .ok settings := by
  induction settings with
  | nil => rfl
  | cons s rest ih =>
    have first := (h s (by simp)).parse_display
    have others := ih fun t ht => h t (by simp [ht])
    rw [List.map_cons, parseAll_filled (not_blank_of_parse first), first, others]
    rfl

end Display

/-- What texts stand for settings. A text is read as the setting that is left of it when blanks and
at most one sign are taken off, which is one with a name of letters, digits and underscores; such a
text has blanks around sign and name, and any other is refused with what is left after trimming. A
list is read entry by entry without the blank ones, up to the first that is refused, so joined lists
give joined settings. The settings that a list can give are those that their displayed texts give.
-/
theorem texts_of_settings (text : String) (texts more : List String) (settings : List Setting) :
    (∀ s, parse text = .ok s ↔ s.WellNamed ∧ s.LeftOf text.toList) ∧
    (∀ s : Setting, s.WellNamed → (s.LeftOf text.toList ↔ s.Written text.toList)) ∧
    (∀ e, parse text = .error e ↔
      (¬ ∃ s : Setting, s.WellNamed ∧ s.LeftOf text.toList) ∧
        e = .config (.badSetting (Text.trimmed text)) ∧
        e.message = "Configuration error: invalid feature setting: " ++
          Text.quoted (Text.trimmed text)) ∧
    parseAll texts = (texts.filter fun text => decide (¬ Blank text)).mapM parse ∧
    (∀ e, parseAll texts = .error e ↔ ∃ front bad behind, texts = front ++ bad :: behind ∧
      (∀ text ∈ front, Blank text ∨ ∃ s, parse text = .ok s) ∧ ¬ Blank bad ∧
      parse bad = .error e) ∧
    parseAll (texts ++ more) = (do
      let own ← parseAll texts
      let added ← parseAll more
      return own ++ added) ∧
    ((∃ texts, parseAll texts = .ok settings) ↔
      parseAll (settings.map display) = .ok settings) := by
  have readable : ∀ s, parse text = .ok s ↔ s.WellNamed ∧ s.LeftOf text.toList :=
    fun s => parse_ok_iff.trans read_eq_some_iff
  refine ⟨readable, fun s named => leftOf_iff_written named, ?_, parseAll_eq_mapM texts,
    fun e => parseAll_eq_error_iff, ?_, ?_⟩
  · intro e
    simp only [← readable]
    rw [parse]
    cases read text.toList with
    | some s => simp
    | none =>
      simp only [Except.error.injEq, reduceCtorEq, exists_false, not_false_eq_true, true_and]
      constructor
      · rintro rfl
        exact ⟨rfl, rfl⟩
      · rintro ⟨rfl, -⟩
        rfl
  · rw [parseAll_append]
    cases parseAll texts with
    | error e => rfl
    | ok own => cases parseAll more <;> rfl
  · constructor
    · rintro ⟨texts, parsed⟩
      exact parseAll_display (wellNamed_of_parseAll parsed)
    · intro parsed
      exact ⟨settings.map display, parsed⟩

/-- Blanks may stand around the sign too, and need not be of ASCII. -/
example : read "\u00a0 -\tF_1 ".toList = some ⟨"F_1", false⟩ := by decide

end Setting

end MutantSieve
