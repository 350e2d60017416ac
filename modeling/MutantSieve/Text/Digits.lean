/-!
# Digits

Natural numbers and integers in decimal notation, without leading zeros.
-/

set_option autoImplicit false

namespace MutantSieve.Text

def isDigit (c : Char) : Bool := decide (48 ≤ c.toNat) && decide (c.toNat ≤ 57)

def digitValue (c : Char) : Nat := c.toNat - 48

def digitChar (n : Nat) : Char := Char.ofNat (48 + n % 10)

def digits (n : Nat) : List Char :=
  if n < 10 then [digitChar n] else digits (n / 10) ++ [digitChar n]
termination_by n

def readDigits (n : Nat) : List Char → Nat
  | [] => n
  | c :: r => readDigits (digitValue c + 10 * n) r

def natural (n : Nat) : String := String.ofList (digits n)

def integer (i : Int) : List Char := if i < 0 then '-' :: digits i.natAbs else digits i.natAbs

theorem readDigits_cons (n : Nat) (c : Char) (s : List Char) :
    readDigits n (c :: s) = readDigits (digitValue c + 10 * n) s := by
  simp only [readDigits]

theorem readDigits_append (n : Nat) (s t : List Char) :
    readDigits n (s ++ t) = readDigits (readDigits n s) t := by
  induction s generalizing n with
  | nil => rfl
  | cons c r ih => rw [List.cons_append, readDigits_cons, readDigits_cons, ih]

theorem digitValue_digitChar (n : Nat) : digitValue (digitChar n) = n % 10 := by
  have h : n % 10 < 10 := Nat.mod_lt _ (by decide)
  have valid : (48 + n % 10).isValidChar := Or.inl (by omega)
  have value : (digitChar n).toNat = 48 + n % 10 := by
    rw [digitChar, Char.ofNat, dif_pos valid]
    rfl
  rw [digitValue, value]
  omega

theorem readDigits_singleton (n m : Nat) :
    readDigits n [digitChar m] = m % 10 + 10 * n := by
  simp only [readDigits, digitValue_digitChar]

theorem readDigits_digits (n : Nat) : readDigits 0 (digits n) = n := by
  fun_induction digits n with
  | case1 n h => simp only [readDigits_singleton]; omega
  | case2 n h ih => simp only [readDigits_append, ih, readDigits_singleton]; omega

end MutantSieve.Text
