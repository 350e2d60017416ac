import MutantSieve.ClassTree
import MutantSieve.Data

/-!
# Decoding

From data to typed values. Data are taken in the order of the document and the first thing wrong
with them is reported: data that do not have the required shape, something that one of the
program's own checks refuses, or a value that has the right shape but stands for nothing.

A record may hold names that are not asked for, whose values are skipped, but may repeat none that
is. It may also be given as the list of its fields in order, the last ones left out if they have
defaults. Kinds of documents differ in what else such a list may hold.
-/

set_option autoImplicit false

namespace MutantSieve

inductive Refusal where
  | malformed
  | rejected (check : Check)
  | unrepresentable
  deriving DecidableEq, Repr

abbrev Decoded (α : Type) := Except Refusal α

namespace Decode

variable {α σ : Type}

def text : Data → Decoded String
  | .text (some s) => .ok s
  | _ => .error .malformed

def bool : Data → Decoded Bool
  | .bool b => .ok b
  | _ => .error .malformed

def integer (hasPlace : Int → Bool) : Data → Decoded Int
  | .number (.integer i) => if hasPlace i then .ok i else .error .malformed
  | _ => .error .malformed

def natural (bits : Nat) (d : Data) : Decoded Nat :=
  (integer (Word.unsigned bits) d).map Int.toNat

def word16 (d : Data) : Decoded UInt16 := (natural 16 d).map UInt16.ofNat

def word32 (d : Data) : Decoded UInt32 := (natural 32 d).map UInt32.ofNat

def word64 (d : Data) : Decoded UInt64 := (natural 64 d).map UInt64.ofNat

def int32 (d : Data) : Decoded Int32 := (integer (Word.signed 32) d).map Int32.ofInt

def int64 (d : Data) : Decoded Int64 := (integer (Word.signed 64) d).map Int64.ofInt

def float (f : Binary.Format) : Data → Decoded Binary
  | .number (.integer i) => if Data.inRange i then .ok (f.ofInt i) else .error .malformed
  | .number (.float x) => .ok (f.convert x)
  | _ => .error .malformed

def nullable (decode : Data → Decoded α) : Data → Decoded (Option α)
  | .null => .ok none
  | d => (decode d).map some

def items (decode : Data → Decoded α) : List Data → Decoded (List α)
  | [] => .ok []
  | d :: rest =>
    match decode d with
    | .error e => .error e
    | .ok a => (items decode rest).map (a :: ·)

def ended (closed : Bool) (a : α) : Decoded α := if closed then .ok a else .error .malformed

def list (decode : Data → Decoded α) : Data → Decoded (List α)
  | .list ds closed =>
    match items decode ds with
    | .error e => .error e
    | .ok as => ended closed as
  | _ => .error .malformed

/-- The value of a field that has not been seen before. -/
def fill (decode : Data → Decoded α) (d : Data) : Option α → Decoded (Option α)
  | none => (decode d).map some
  | some _ => .error .malformed

def skip (d : Data) (s : σ) : Decoded σ := if d.intact then .ok s else .error .malformed

def members (step : σ → String → Data → Decoded σ) (s : σ) :
    List (Option String × Data) → Decoded σ
  | [] => .ok s
  | (none, _) :: _ => .error .malformed
  | (some name, d) :: rest =>
    match step s name d with
    | .error e => .error e
    | .ok s => members step s rest

def record (step : σ → String → Data → Decoded σ) (start : σ)
    (ms : List (Option String × Data)) (closed : Bool) : Decoded σ :=
  match members step start ms with
  | .error e => .error e
  | .ok s => ended closed s

def present : Option α → Decoded α
  | some a => .ok a
  | none => .error .malformed

def next (decode : Data → Decoded α) : List Data → Decoded (α × List Data)
  | [] => .error .malformed
  | d :: rest => (decode d).map fun a => (a, rest)

def nextOr (a : α) (closed : Bool) (decode : Data → Decoded α) :
    List Data → Decoded (α × List Data)
  | [] => ended closed (a, [])
  | d :: rest => (decode d).map fun a => (a, rest)

def finished (closed : Bool) (ds : List Data) : Decoded Unit := ended (closed && ds.isEmpty) ()

/-- What a kind of document lets a list stand for. -/
structure Dialect where
  /-- Whether the list of the fields of a record may hold more than the fields. -/
  surplus : Bool
  /-- Whether the place of a type among all types may stand in a list for its name. -/
  typeByPlace : Bool
  deriving DecidableEq, Repr

namespace Dialect

def json : Dialect := ⟨false, true⟩

def toml : Dialect := ⟨true, false⟩

def finish (dialect : Dialect) (closed : Bool) (ds : List Data) : Decoded Unit :=
  if dialect.surplus then .ok () else finished closed ds

end Dialect

end Decode

end MutantSieve
