import MutantSieve.Json.Reader
import MutantSieve.Json.Value

/-!
# Strings in JSON text

A string is a sequence of characters in their spellings, each of which is read as one piece. Every
text can be written as such a string, with every character as it is, by a short escape or by its
code, and the pieces stand for the characters again.
-/

set_option autoImplicit false

namespace MutantSieve.Json

def isHexDigit (c : Char) : Bool :=
  Text.isDigit c || decide ('a' ≤ c ∧ c ≤ 'f') || decide ('A' ≤ c ∧ c ≤ 'F')

/-- A character of a string in its spelling: as it stands, by a letter behind a backslash, or by a
code unit of four hexadecimal digits. -/
inductive Glyph where
  | plain (c : Char) (visible : 32 ≤ c.toNat) (inside : c ≠ '"') (unescaped : c ≠ '\\')
  | short (letter : Char) (known : letter ∈ ['"', '\\', '/', 'b', 'f', 'n', 'r', 't'])
  | code (a b c d : Char) (hex : ∀ h ∈ [a, b, c, d], isHexDigit h = true)

namespace Glyph

def text : Glyph → List Char
  | plain c .. => [c]
  | short letter _ => ['\\', letter]
  | code a b c d _ => ['\\', 'u', a, b, c, d]

def piece : Glyph → Piece
  | plain c .. => .char c
  | short letter _ => .char ((shortEscape? letter).getD letter)
  | code a b c d _ => .unit ((hexCode? [a, b, c, d]).getD 0)

end Glyph

structure Literal where
  glyphs : List Glyph

namespace Literal

def text (l : Literal) : List Char := '"' :: l.glyphs.flatMap Glyph.text ++ ['"']

/-- The text that is spelled; absent where half of a surrogate pair is left alone. -/
def content (l : Literal) : Option String :=
  (joinPieces (l.glyphs.map Glyph.piece)).map String.ofList

end Literal

section Reading

theorem hexValue_isSome {c : Char} (h : isHexDigit c = true) : ∃ n, hexValue? c = some n := by
  have letters : Text.isDigit c = true ∨ ('a' ≤ c ∧ c ≤ 'f') ∨ ('A' ≤ c ∧ c ≤ 'F') := by
    simpa [isHexDigit, or_assoc] using h
  have codes : Text.isDigit c = true ∨ (97 ≤ c.toNat ∧ c.toNat ≤ 102) ∨
      (65 ≤ c.toNat ∧ c.toNat ≤ 70) := letters
  unfold hexValue?
  by_cases digit : Text.isDigit c = true
  · exact ⟨_, if_pos digit⟩
  by_cases small : 97 ≤ c.toNat ∧ c.toNat ≤ 102
  · exact ⟨_, by rw [if_neg digit, if_pos small]⟩
  · have capital := (codes.resolve_left digit).resolve_left small
    exact ⟨_, by rw [if_neg digit, if_neg small, if_pos capital]⟩

theorem hexCode_isSome {a b c d : Char} (h : ∀ x ∈ [a, b, c, d], isHexDigit x = true) :
    ∃ n, hexCode? [a, b, c, d] = some n := by
  obtain ⟨i, hi⟩ := hexValue_isSome (h a (by simp))
  obtain ⟨j, hj⟩ := hexValue_isSome (h b (by simp))
  obtain ⟨k, hk⟩ := hexValue_isSome (h c (by simp))
  obtain ⟨l, hl⟩ := hexValue_isSome (h d (by simp))
  exact ⟨16 * (16 * (16 * i + j) + k) + l, by simp [hexCode?, hi, hj, hk, hl]⟩

theorem readPieces_plain {c : Char} (h : c ≠ '"') (h' : c ≠ '\\') (visible : ¬ c.toNat < 32)
    (s : List Char) :
    readPieces (c :: s) = (readPieces s).map fun p => (.char c :: p.1, p.2) := by
  have passes : ¬ (c.toNat < 32 ∨ c = '\\') := by simp [visible, h']
  rw [readPieces, if_neg passes]
  · exact h
  · intro a b d e r start
    exact absurd start h'
  · intro e r start
    exact absurd start h'

theorem readPieces_glyph (g : Glyph) (s : List Char) :
    readPieces (g.text ++ s) = (readPieces s).map fun p => (g.piece :: p.1, p.2) := by
  cases g with
  | plain c visible inside unescaped =>
    exact readPieces_plain inside unescaped (by omega) s
  | short letter known =>
    simp only [List.mem_cons, List.not_mem_nil, or_false] at known
    rcases known with rfl | rfl | rfl | rfl | rfl | rfl | rfl | rfl <;> rfl
  | code a b c d hex =>
    obtain ⟨n, read⟩ := hexCode_isSome hex
    simp [Glyph.text, Glyph.piece, readPieces, read]

theorem readPieces_glyphs (gs : List Glyph) (s : List Char) :
    readPieces (gs.flatMap Glyph.text ++ '"' :: s) = some (gs.map Glyph.piece, s) := by
  induction gs with
  | nil => rfl
  | cons g gs ih =>
    rw [List.flatMap_cons, List.append_assoc, readPieces_glyph, ih]
    rfl

theorem readString_literal (l : Literal) (s : List Char) :
    readString (l.glyphs.flatMap Glyph.text ++ '"' :: s) = some (l.content, s) := by
  rw [readString, readPieces_glyphs]
  rfl

end Reading

section Writing

theorem isHexDigit_hexDigit (n : Nat) (h : n < 16) : isHexDigit (hexDigit n) = true := by
  have all : ∀ k : Fin 16, isHexDigit (hexDigit k.val) = true := by decide
  exact all ⟨n, h⟩

theorem hexCode_hexDigits (n : Nat) (h : n < 32) :
    hexCode? ['0', '0', hexDigit (n / 16), hexDigit (n % 16)] = some n := by
  have all : ∀ k : Fin 32,
      hexCode? ['0', '0', hexDigit (k.val / 16), hexDigit (k.val % 16)] = some k.val := by decide
  exact all ⟨n, h⟩

/-- The piece as which a written character is read. Only a control character without a short escape
comes back as a code unit. -/
def pieceOf (c : Char) : Piece :=
  if c = '\x08' ∨ c = '\t' ∨ c = '\n' ∨ c = '\x0c' ∨ c = '\r' then .char c
  else if c.toNat < 32 then .unit c.toNat
  else .char c

theorem hexDigits_control {c : Char} (control : c.toNat < 32) :
    ∀ x ∈ ['0', '0', hexDigit (c.toNat / 16), hexDigit (c.toNat % 16)], isHexDigit x = true := by
  have high := isHexDigit_hexDigit (c.toNat / 16) (by omega)
  have low := isHexDigit_hexDigit (c.toNat % 16) (by omega)
  have zero : isHexDigit '0' = true := by decide
  simp [zero, high, low]

def Glyph.written (c : Char) : Glyph :=
  if quote : c = '"' then .short '"' (by decide)
  else if backslash : c = '\\' then .short '\\' (by decide)
  else if c = '\x08' then .short 'b' (by decide)
  else if c = '\t' then .short 't' (by decide)
  else if c = '\n' then .short 'n' (by decide)
  else if c = '\x0c' then .short 'f' (by decide)
  else if c = '\r' then .short 'r' (by decide)
  else if control : c.toNat < 32 then .code _ _ _ _ (hexDigits_control control)
  else .plain c (by omega) quote backslash

theorem Glyph.text_written (c : Char) : (Glyph.written c).text = escaped c := by
  unfold Glyph.written escaped
  iterate 8
    split
    · rfl
  rfl

theorem Glyph.piece_written (c : Char) : (Glyph.written c).piece = pieceOf c := by
  unfold Glyph.written
  iterate 7
    split
    · rename_i short
      subst short
      rfl
  split
  · rename_i control
    have code := hexCode_hexDigits c.toNat control
    simp [Glyph.piece, pieceOf, *]
  · simp [Glyph.piece, pieceOf, *]

theorem joinPieces_unit {n : Nat} (h : n < 32) (ps : List Piece) :
    joinPieces (.unit n :: ps) = (joinPieces ps).map (Char.ofNat n :: ·) := by
  have high : isHigh n = false := by simp [isHigh]; omega
  have low : isLow n = false := by simp [isLow]; omega
  cases ps with
  | nil => simp [joinPieces, high, low]
  | cons p ps =>
    cases p with
    | char c => simp [joinPieces, high, low]
    | unit k => simp [joinPieces, high, low]

theorem joinPieces_pieceOf (s : List Char) : joinPieces (s.map pieceOf) = some s := by
  induction s with
  | nil => rfl
  | cons c s ih =>
    rw [List.map_cons, pieceOf]
    split
    · rw [joinPieces, ih]
      rfl
    split
    · rename_i control
      rw [joinPieces_unit control, ih, Char.ofNat_toNat]
      rfl
    · rw [joinPieces, ih]
      rfl

def Literal.written (s : String) : Literal := ⟨s.toList.map Glyph.written⟩

theorem Literal.text_written (s : String) : (Literal.written s).text = string s := by
  simp [Literal.text, Literal.written, string, List.flatMap_map, Glyph.text_written]

theorem Literal.content_written (s : String) : (Literal.written s).content = some s := by
  have pieces : (s.toList.map Glyph.written).map Glyph.piece = s.toList.map pieceOf := by
    simp [Glyph.piece_written]
  rw [Literal.content, Literal.written, pieces, joinPieces_pieceOf, Option.map_some,
    String.ofList_toList]

end Writing

end MutantSieve.Json
