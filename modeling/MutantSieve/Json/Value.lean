import MutantSieve.Binary.Text

/-!
# JSON values and their texts

A value is written without any blanks, or over several lines with an indentation of two blanks a
level. The members of a record keep their order.
-/

set_option autoImplicit false

namespace MutantSieve

inductive Json where
  | null
  | bool (value : Bool)
  | int (value : Int)
  | float (format : Binary.Format) (value : Binary)
  | text (value : String)
  | list (items : List Json)
  | record (members : List (String × Json))
  deriving Inhabited

namespace Json

def nat (n : Nat) : Json := int (Int.ofNat n)

def double (x : Binary) : Json := float Binary.double x

def hexDigit (n : Nat) : Char :=
  if n < 10 then Char.ofNat (48 + n) else Char.ofNat (87 + n)

/-- A character within a string. Control characters have short escapes or two hexadecimal
digits. -/
def escaped (c : Char) : List Char :=
  if c = '"' then ['\\', '"']
  else if c = '\\' then ['\\', '\\']
  else if c = '\x08' then ['\\', 'b']
  else if c = '\t' then ['\\', 't']
  else if c = '\n' then ['\\', 'n']
  else if c = '\x0c' then ['\\', 'f']
  else if c = '\r' then ['\\', 'r']
  else if c.toNat < 32 then
    ['\\', 'u', '0', '0', hexDigit (c.toNat / 16), hexDigit (c.toNat % 16)]
  else [c]

def string (s : String) : List Char := '"' :: s.toList.flatMap escaped ++ ['"']

def word (b : Bool) : List Char := if b then "true".toList else "false".toList

mutual

def compact : Json → List Char
  | null => ['n', 'u', 'l', 'l']
  | bool b => word b
  | int i => Text.integer i
  | float f x => f.json x
  | text s => string s
  | list [] => ['[', ']']
  | list (j :: rest) => '[' :: j.compact ++ compactItems rest
  | record [] => ['{', '}']
  | record ((k, j) :: rest) => '{' :: string k ++ ':' :: j.compact ++ compactMembers rest

def compactItems : List Json → List Char
  | [] => [']']
  | j :: rest => ',' :: j.compact ++ compactItems rest

def compactMembers : List (String × Json) → List Char
  | [] => ['}']
  | (k, j) :: rest => ',' :: string k ++ ':' :: j.compact ++ compactMembers rest

end

def indented (level : Nat) : List Char := '\n' :: List.replicate (2 * level) ' '

mutual

def pretty (level : Nat) : Json → List Char
  | null => ['n', 'u', 'l', 'l']
  | bool b => word b
  | int i => Text.integer i
  | float f x => f.json x
  | text s => string s
  | list [] => ['[', ']']
  | list (j :: rest) =>
    '[' :: indented (level + 1) ++ j.pretty (level + 1) ++ prettyItems level rest
  | record [] => ['{', '}']
  | record ((k, j) :: rest) =>
    '{' :: indented (level + 1) ++ string k ++ ':' :: ' ' :: j.pretty (level + 1) ++
      prettyMembers level rest

def prettyItems (level : Nat) : List Json → List Char
  | [] => indented level ++ [']']
  | j :: rest =>
    ',' :: indented (level + 1) ++ j.pretty (level + 1) ++ prettyItems level rest

def prettyMembers (level : Nat) : List (String × Json) → List Char
  | [] => indented level ++ ['}']
  | (k, j) :: rest =>
    ',' :: indented (level + 1) ++ string k ++ ':' :: ' ' :: j.pretty (level + 1) ++
      prettyMembers level rest

end

def compactText (j : Json) : String := String.ofList j.compact

end Json

end MutantSieve
