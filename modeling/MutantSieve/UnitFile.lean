import MutantSieve.Decode.Mutation
import MutantSieve.Error
import MutantSieve.Json.Reader
import MutantSieve.Toml.Reader

/-!
# Unit files

A unit is a class together with the mutations that were made for it. A file of units is JSON text or
TOML text; the JSON text may also be the bare array of the units.
-/

set_option autoImplicit false

namespace MutantSieve

structure ClassUnit where
  «class» : ClassTree
  mutations : List Mutation
  deriving DecidableEq, Inhabited

inductive UnitFormat where
  | json
  | toml
  deriving DecidableEq, Repr

namespace Decode

def json {α : Type} (decode : Data → Decoded α) (s : List Char) : Decoded α :=
  let (d, rest) := Json.read s
  match decode d with
  | .error e => .error e
  | .ok a => ended (Json.ends rest) a

structure UnitFields where
  «class» : Option ClassTree := none
  mutations : Option (List Mutation) := none

def UnitFields.step (dialect : Dialect) (f : UnitFields) (name : String) (d : Data) :
    Decoded UnitFields :=
  match name with
  | "class" => do return { f with «class» := ← fill (classTree dialect) d f.class }
  | "mutations" => do return { f with mutations := ← fill (list mutation) d f.mutations }
  | _ => skip d f

def classUnit (dialect : Dialect) : Data → Decoded ClassUnit
  | .record ms closed => do
    let f ← record (UnitFields.step dialect) {} ms closed
    return ⟨← present f.class, f.mutations.getD []⟩
  | .list ds closed => do
    let («class», ds) ← next (classTree dialect) ds
    let (mutations, ds) ← nextOr [] closed (list mutation) ds
    dialect.finish closed ds
    return ⟨«class», mutations⟩
  | _ => .error .malformed

def unitsStep (dialect : Dialect) (units : Option (List ClassUnit)) (name : String)
    (d : Data) : Decoded (Option (List ClassUnit)) :=
  match name with
  | "units" => fill (list (classUnit dialect)) d units
  | _ => skip d units

def unitFile (dialect : Dialect) : Data → Decoded (List ClassUnit)
  | .record ms closed => (record (unitsStep dialect) none ms closed).map fun units => units.getD []
  | _ => .error .malformed

/-- The units in a JSON text. It is an array if its first character that is no white space is an
opening bracket. -/
def jsonUnits (s : List Char) : Decoded (List ClassUnit) :=
  if (Text.trimStart s).head? = some '[' then json (list (classUnit .json)) s
  else json (unitFile .json) s

def tomlUnits (text : String) : Decoded (List ClassUnit) :=
  match Toml.read .v11 text with
  | some d => unitFile .toml d
  | none => .error .malformed

end Decode

def Refusal.check? : Refusal → Option Check
  | rejected found => some found
  | malformed | unrepresentable => none

def UnitFormat.parse (f : UnitFormat) (text : String) : Decoded (List ClassUnit) :=
  match f with
  | json => Decode.jsonUnits text.toList
  | toml => Decode.tomlUnits text

end MutantSieve
