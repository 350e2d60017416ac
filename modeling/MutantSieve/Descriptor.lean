import MutantSieve.Text.Quoted

/-!
# Method descriptors

The argument types of a method between parentheses and its return type behind them, as in
`(ILjava/lang/String;[J)V`. Reading is by one field type at a time; writing is the inverse of it.
-/

set_option autoImplicit false

namespace MutantSieve

inductive FieldType where
  | byte
  | char
  | double
  | float
  | int
  | long
  | short
  | boolean
  | object (name : String)
  | array (element : FieldType)
  deriving DecidableEq, Repr, Inhabited

structure MethodDescriptor where
  arguments : List FieldType
  /-- Absent for a method without a value. -/
  returnType : Option FieldType
  deriving DecidableEq, Repr, Inhabited

inductive MethodDescriptor.Fault where
  | noOpening
  | noClosing
  | ended
  | unterminatedName
  | emptyName
  | unexpectedTag (tag : Char)
  | trailing (rest : String)
  deriving DecidableEq, Repr

namespace FieldType

def render : FieldType → List Char
  | byte => ['B']
  | char => ['C']
  | double => ['D']
  | float => ['F']
  | int => ['I']
  | long => ['J']
  | short => ['S']
  | boolean => ['Z']
  | object name => 'L' :: name.toList ++ [';']
  | array element => '[' :: element.render

def readName (s : List Char) : Except MethodDescriptor.Fault (FieldType × List Char) :=
  let name := s.takeWhile (· ≠ ';')
  match s.dropWhile (· ≠ ';') with
  | [] => .error .unterminatedName
  | _ :: rest =>
    if name.isEmpty then .error .emptyName else .ok (.object (String.ofList name), rest)

def read : List Char → Except MethodDescriptor.Fault (FieldType × List Char)
  | [] => .error .ended
  | 'B' :: rest => .ok (byte, rest)
  | 'C' :: rest => .ok (char, rest)
  | 'D' :: rest => .ok (double, rest)
  | 'F' :: rest => .ok (float, rest)
  | 'I' :: rest => .ok (int, rest)
  | 'J' :: rest => .ok (long, rest)
  | 'S' :: rest => .ok (short, rest)
  | 'Z' :: rest => .ok (boolean, rest)
  | 'L' :: rest => readName rest
  | '[' :: rest =>
    match read rest with
    | .ok (element, rest) => .ok (array element, rest)
    | .error fault => .error fault
  | tag :: _ => .error (.unexpectedTag tag)

theorem readName_length {s rest : List Char} {t : FieldType}
    (h : readName s = .ok (t, rest)) : rest.length < s.length := by
  simp only [readName] at h
  split at h
  · cases h
  · rename_i c tail drop
    split at h
    · cases h
    · cases h
      have whole := congrArg List.length
        (List.takeWhile_append_dropWhile (p := (· ≠ ';')) (l := s))
      rw [drop, List.length_append, List.length_cons] at whole
      omega

theorem read_length {s rest : List Char} {t : FieldType}
    (h : read s = .ok (t, rest)) : rest.length < s.length := by
  fun_induction read s generalizing t rest with
  | case10 tail => exact Nat.lt_succ_of_lt (readName_length h)
  | case11 tail element inner eq ih =>
    cases h
    exact Nat.lt_succ_of_lt (ih eq)
  | _ => simp_all

end FieldType

namespace MethodDescriptor

def renderArguments : List FieldType → List Char
  | [] => []
  | t :: ts => t.render ++ renderArguments ts

def renderReturn : Option FieldType → List Char
  | none => ['V']
  | some t => t.render

def render (m : MethodDescriptor) : List Char :=
  '(' :: renderArguments m.arguments ++ ')' :: renderReturn m.returnType

def display (m : MethodDescriptor) : String := String.ofList m.render

def readArguments (s : List Char) : Except Fault (List FieldType × List Char) :=
  match s with
  | [] => .error .noClosing
  | ')' :: rest => .ok ([], rest)
  | c :: tail =>
    match _step : FieldType.read (c :: tail) with
    | .error fault => .error fault
    | .ok (t, rest) =>
      match readArguments rest with
      | .error fault => .error fault
      | .ok (ts, rest) => .ok (t :: ts, rest)
termination_by s.length
decreasing_by exact FieldType.read_length _step

/-- The return type, which has to be all that is left. A `V` stands for none only when it is
alone. -/
def readReturn (s : List Char) : Except Fault (Option FieldType) :=
  if s = ['V'] then .ok none
  else
    match FieldType.read s with
    | .error fault => .error fault
    | .ok (t, []) => .ok (some t)
    | .ok (_, rest) => .error (.trailing (String.ofList rest))

def read : List Char → Except Fault MethodDescriptor
  | '(' :: rest =>
    match readArguments rest with
    | .error fault => .error fault
    | .ok (arguments, rest) =>
      match readReturn rest with
      | .error fault => .error fault
      | .ok returnType => .ok ⟨arguments, returnType⟩
  | _ => .error .noOpening

def parse (text : String) : Except Fault MethodDescriptor := read text.toList

def argumentCount (text : String) : Except Fault Nat :=
  (parse text).map fun m => m.arguments.length

def Fault.message : Fault → String
  | noOpening => "must start with '('"
  | noClosing => "missing ')'"
  | ended => "unexpected end of descriptor"
  | unterminatedName => "unterminated class name"
  | emptyName => "empty class name"
  | unexpectedTag tag => "unexpected type tag '" ++ tag.toString ++ "'"
  | trailing rest => "trailing characters " ++ Text.quoted rest

end MethodDescriptor

end MutantSieve
