import MutantSieve.Text.Printable

/-!
# Quoted texts

A text between quotation marks, in which every character can be seen: the marks, the backslash and
the common control characters have short escapes, and what is not plain is written by its code
point.
-/

set_option autoImplicit false

namespace MutantSieve.Text

def quotedChar (c : Char) : List Char :=
  if c = '"' then ['\\', '"']
  else if c = '\\' then ['\\', '\\']
  else if c = '\x00' then ['\\', '0']
  else if c = '\t' then ['\\', 't']
  else if c = '\n' then ['\\', 'n']
  else if c = '\r' then ['\\', 'r']
  else if isPlain c then [c]
  else ['\\', 'u', '{'] ++ Nat.toDigits 16 c.toNat ++ ['}']

def quoted (s : String) : String :=
  String.ofList ('"' :: s.toList.flatMap quotedChar ++ ['"'])

end MutantSieve.Text
