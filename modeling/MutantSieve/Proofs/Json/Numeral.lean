import Mathlib.Data.List.TakeWhile
import MutantSieve.Json.Reader

/-!
# Numbers in JSON text

A number of the grammar is read with all its parts, provided that the text behind it does not go on
with the number. The decimal notation of an integer is such a number, and its value is the integer
where that has a place in 64 bits.
-/

set_option autoImplicit false

namespace MutantSieve

namespace Text

theorem isDigit_digitChar (n : Nat) : isDigit (digitChar n) = true := by
  have h : n % 10 < 10 := Nat.mod_lt n (by decide)
  have valid : (48 + n % 10).isValidChar := Or.inl (by omega)
  have value : (digitChar n).toNat = 48 + n % 10 := by
    rw [digitChar, Char.ofNat, dif_pos valid]
    rfl
  simp [isDigit, value]
  omega

theorem digits_isDigit (n : Nat) : ∀ c ∈ digits n, isDigit c = true := by
  fun_induction digits n with
  | case1 n h =>
    intro c hc
    rw [List.mem_singleton.mp hc]
    exact isDigit_digitChar n
  | case2 n h ih =>
    intro c hc
    rcases List.mem_append.mp hc with hc | hc
    · exact ih c hc
    · rw [List.mem_singleton.mp hc]
      exact isDigit_digitChar n

theorem digits_eq_cons (n : Nat) : ∃ c r, digits n = c :: r ∧ isDigit c = true := by
  have inside := digits_isDigit n
  cases split : digits n with
  | nil =>
    rw [digits] at split
    split at split <;> simp at split
  | cons c r =>
    rw [split] at inside
    exact ⟨c, r, rfl, inside c (by simp)⟩

theorem digits_leading_zero {n : Nat} (h : (digits n).head? = some '0') : n = 0 := by
  fun_induction digits n with
  | case1 n small =>
    have char : digitChar n = '0' := by simpa using h
    have value := digitValue_digitChar n
    rw [char] at value
    have zero : digitValue '0' = 0 := rfl
    omega
  | case2 n large ih =>
    obtain ⟨c, r, first, -⟩ := digits_eq_cons (n / 10)
    rw [first] at h ih
    have tenth := ih (by simpa using h)
    omega

end Text

namespace Json

def EndsNumber (s : List Char) : Prop :=
  ∀ c r, s = c :: r → Text.isDigit c = false ∧ c ≠ '.' ∧ c ≠ 'e' ∧ c ≠ 'E'

theorem endsNumber_nil : EndsNumber [] := by
  intro c r h
  cases h

theorem endsNumber_cons {c : Char} (r : List Char)
    (h : Text.isDigit c = false ∧ c ≠ '.' ∧ c ≠ 'e' ∧ c ≠ 'E') : EndsNumber (c :: r) := by
  intro d s same
  cases same
  exact h

section Digits

variable {s : List Char}

theorem readDigitRun_append {ds : List Char} (filled : ds ≠ [])
    (digits : ∀ c ∈ ds, Text.isDigit c = true)
    (ends : ∀ c r, s = c :: r → Text.isDigit c = false) :
    readDigitRun (ds ++ s) = some (ds, s) := by
  have taken : s.takeWhile Text.isDigit = [] := by
    cases s with
    | nil => rfl
    | cons c r => simp [ends c r rfl]
  have left : s.dropWhile Text.isDigit = s := by
    cases s with
    | nil => rfl
    | cons c r => simp [ends c r rfl]
  have run : (ds ++ s).takeWhile Text.isDigit = ds := by
    rw [List.takeWhile_append_of_pos digits, taken, List.append_nil]
  have rest : (ds ++ s).dropWhile Text.isDigit = s := by
    rw [List.dropWhile_append_of_pos digits, left]
  obtain ⟨c, r, rfl⟩ := List.exists_cons_of_ne_nil filled
  rw [readDigitRun, run, rest]

end Digits

def IsRun (ds : List Char) : Prop := ds ≠ [] ∧ ∀ c ∈ ds, Text.isDigit c = true

/-- A number in its spelling. The letter of an exponent may be a capital, and a plus may stand in
front of an exponent without a sign. -/
structure Number where
  parts : Parts
  capital : Bool
  plus : Bool
  whole : IsRun parts.whole
  leading : parts.whole.head? = some '0' → parts.whole.length = 1
  fraction : ∀ ds ∈ parts.fraction, IsRun ds
  exponent : ∀ e ∈ parts.exponent, IsRun e.2

namespace Number

def fractionText : Option (List Char) → List Char
  | none => []
  | some ds => '.' :: ds

def exponentText (capital plus : Bool) : Option (Bool × List Char) → List Char
  | none => []
  | some (down, ds) =>
    (if capital then 'E' else 'e') :: if down then '-' :: ds else if plus then '+' :: ds else ds

def unsigned (n : Number) : List Char :=
  n.parts.whole ++ (fractionText n.parts.fraction ++ exponentText n.capital n.plus n.parts.exponent)

def text (n : Number) : List Char := if n.parts.negative then '-' :: n.unsigned else n.unsigned

end Number

section Numbers

variable {s : List Char}

theorem readFraction_text {fraction : Option (List Char)} (runs : ∀ ds ∈ fraction, IsRun ds)
    (ends : ∀ c r, s = c :: r → Text.isDigit c = false ∧ c ≠ '.') :
    readFraction (Number.fractionText fraction ++ s) = some (fraction, s) := by
  cases fraction with
  | none =>
    cases s with
    | nil => rfl
    | cons c r =>
      rw [Number.fractionText, List.nil_append, readFraction]
      intro r' same
      exact (ends c r rfl).2 (List.cons.inj same).1
  | some ds =>
    have run := runs ds rfl
    rw [Number.fractionText, List.cons_append, readFraction,
      readDigitRun_append run.1 run.2 fun c r h => (ends c r h).1]
    rfl

theorem readExponent_none (h : EndsNumber s) : readExponent s = some (none, s) := by
  cases s with
  | nil => rfl
  | cons c r =>
    obtain ⟨-, -, small, capital⟩ := h c r rfl
    unfold readExponent
    split <;> simp_all

theorem readExponent_text {exponent : Option (Bool × List Char)}
    (runs : ∀ e ∈ exponent, IsRun e.2) (capital plus : Bool) (ends : EndsNumber s) :
    readExponent (Number.exponentText capital plus exponent ++ s) = some (exponent, s) := by
  cases exponent with
  | none => exact readExponent_none ends
  | some e =>
    obtain ⟨down, ds⟩ := e
    have run := runs _ rfl
    have digits : readDigitRun (ds ++ s) = some (ds, s) :=
      readDigitRun_append run.1 run.2 fun c r h => (ends c r h).1
    obtain ⟨d, rest, rfl⟩ := List.exists_cons_of_ne_nil run.1
    have digit := run.2 d (by simp)
    have noSign : d ≠ '+' ∧ d ≠ '-' := by
      constructor <;> (rintro rfl; cases digit)
    cases capital <;> cases down <;> cases plus <;>
      simp_all [Number.exponentText, readExponent, readExponentDigits]

theorem readUnsigned_text (n : Number) (ends : EndsNumber s) :
    readUnsigned n.parts.negative (n.unsigned ++ s) = some (n.parts, s) := by
  have exponentEnds : ∀ c r, Number.exponentText n.capital n.plus n.parts.exponent ++ s = c :: r →
      Text.isDigit c = false ∧ c ≠ '.' := by
    intro c r same
    cases h : n.parts.exponent with
    | none =>
      rw [h] at same
      exact ⟨(ends c r same).1, (ends c r same).2.1⟩
    | some e =>
      rw [h, Number.exponentText, List.cons_append] at same
      rw [← (List.cons.inj same).1]
      cases n.capital <;> decide
  have fractionEnds : ∀ c r, Number.fractionText n.parts.fraction ++
      (Number.exponentText n.capital n.plus n.parts.exponent ++ s) = c :: r →
      Text.isDigit c = false := by
    intro c r same
    cases h : n.parts.fraction with
    | none =>
      rw [h] at same
      exact (exponentEnds c r same).1
    | some ds =>
      rw [h, Number.fractionText, List.cons_append] at same
      rw [← (List.cons.inj same).1]
      rfl
  have whole := readDigitRun_append n.whole.1 n.whole.2 fractionEnds
  have single : ¬ (n.parts.whole.head? = some '0' ∧ n.parts.whole.length ≠ 1) :=
    fun h => h.2 (n.leading h.1)
  have fraction := readFraction_text n.fraction exponentEnds
  have exponent := readExponent_text n.exponent n.capital n.plus ends
  simp [readUnsigned, Number.unsigned, whole, single, fraction, exponent]

theorem number_text_head (n : Number) :
    ∃ c t, n.text = c :: t ∧ (Text.isDigit c = true ∨ c = '-') := by
  obtain ⟨c, t, first⟩ := List.exists_cons_of_ne_nil n.whole.1
  have digit : Text.isDigit c = true := n.whole.2 c (by simp [first])
  by_cases negative : n.parts.negative = true
  · exact ⟨'-', n.unsigned, by rw [Number.text, if_pos negative], .inr rfl⟩
  · have text : n.text = c :: (t ++ (Number.fractionText n.parts.fraction ++
        Number.exponentText n.capital n.plus n.parts.exponent)) := by
      rw [Number.text, if_neg negative, Number.unsigned, first, List.cons_append]
    exact ⟨c, _, text, .inl digit⟩

theorem readNumber_text (n : Number) (ends : EndsNumber s) :
    readNumber (n.text ++ s) = some (n.parts, s) := by
  have read := readUnsigned_text n ends
  by_cases negative : n.parts.negative = true
  · rw [Number.text, if_pos negative, List.cons_append, readNumber]
    rwa [negative] at read
  · obtain ⟨c, t, first⟩ := List.exists_cons_of_ne_nil n.whole.1
    have digit : Text.isDigit c = true := n.whole.2 c (by simp [first])
    have noSign : c ≠ '-' := by
      rintro rfl
      cases digit
    rw [Bool.not_eq_true] at negative
    rw [negative] at read
    rw [Number.text, if_neg (by simp [negative])]
    rw [Number.unsigned, first, List.cons_append, List.cons_append] at read ⊢
    rw [readNumber]
    · exact read
    · intro r same
      exact noSign (List.cons.inj same).1

end Numbers

section Integers

theorem absorb_append {significand n : Nat} {ds : List Char}
    (h : absorb significand ds = (n, [])) (more : List Char) :
    absorb significand (ds ++ more) = absorb n more := by
  fun_induction absorb significand ds with
  | case1 => simp_all
  | case2 => simp_all
  | case3 k c r fits ih =>
    rw [List.cons_append, absorb, if_neg fits]
    exact ih h

theorem absorb_digits (n : Nat) (h : n ≤ largest) : absorb 0 (Text.digits n) = (n, []) := by
  fun_induction Text.digits n with
  | case1 n small =>
    have value := Text.digitValue_digitChar n
    have whole : 10 * 0 + Text.digitValue (Text.digitChar n) = n := by omega
    rw [absorb, whole, if_neg (by omega), absorb]
  | case2 n large ih =>
    have value := Text.digitValue_digitChar n
    have whole : 10 * (n / 10) + Text.digitValue (Text.digitChar n) = n := by omega
    rw [absorb_append (ih (by omega)), absorb, whole, if_neg (by omega), absorb]

theorem value_natural (n : Nat) (h : n ≤ largest) :
    (Parts.mk false (Text.digits n) none none).value = .integer n := by
  simp [Parts.value, absorb_digits n h]

theorem value_negative (n : Nat) (positive : n ≠ 0) (h : n ≤ Word.size 63) :
    (Parts.mk true (Text.digits n) none none).value = .integer (-n) := by
  have small : n ≤ largest := by
    have bound : Word.size 63 ≤ largest := by decide
    omega
  have inside : ¬ (n = 0 ∨ Word.size 63 < n) := by omega
  simp [Parts.value, absorb_digits n small, inside]

theorem inRange_bounds {i : Int} (place : Data.inRange i = true) :
    -(Word.size 63 : Int) ≤ i ∧ i < (Word.size 64 : Int) := by
  have larger : Word.size 63 ≤ Word.size 64 := by decide
  simp only [Data.inRange, Word.signed, Word.unsigned, Int.ofNat_eq_natCast, Bool.or_eq_true,
    Bool.and_eq_true, decide_eq_true_eq] at place
  rw [show 64 - 1 = 63 from rfl] at place
  omega

theorem isRun_digits (n : Nat) : IsRun (Text.digits n) := by
  obtain ⟨c, r, first, -⟩ := Text.digits_eq_cons n
  exact ⟨first ▸ List.cons_ne_nil c r, Text.digits_isDigit n⟩

def Number.ofDigits (negative : Bool) (n : Nat) : Number where
  parts := ⟨negative, Text.digits n, none, none⟩
  capital := false
  plus := false
  whole := isRun_digits n
  leading := fun zero => by rw [Text.digits_leading_zero zero, Text.digits]; rfl
  fraction := by simp
  exponent := by simp

theorem Number.text_ofDigits (negative : Bool) (n : Nat) :
    (Number.ofDigits negative n).text =
      if negative then '-' :: Text.digits n else Text.digits n := by
  simp [Number.text, Number.unsigned, Number.ofDigits, Number.fractionText, Number.exponentText]

theorem exists_number {i : Int} (place : Data.inRange i = true) :
    ∃ n : Number, n.text = Text.integer i ∧ n.parts.value = .integer i := by
  obtain ⟨low, high⟩ := inRange_bounds place
  by_cases negative : i < 0
  · have bound : i.natAbs ≤ Word.size 63 := by
      omega
    have value := value_negative i.natAbs (by omega) bound
    have same : -(i.natAbs : Int) = i := by omega
    rw [same] at value
    refine ⟨.ofDigits true i.natAbs, ?_, value⟩
    rw [Number.text_ofDigits, Text.integer, if_pos negative]
    rfl
  · have bound : i.natAbs ≤ largest := by
      have size : largest + 1 = Word.size 64 := by decide
      omega
    have value := value_natural i.natAbs bound
    have same : (i.natAbs : Int) = i := by omega
    rw [same] at value
    refine ⟨.ofDigits false i.natAbs, ?_, value⟩
    rw [Number.text_ofDigits, Text.integer, if_neg negative]
    rfl

end Integers

end Json

end MutantSieve
