import MutantSieve.Decode.Class
import MutantSieve.Mutation

/-!
# Decoding of mutations

A mutation is a record only. Its values, asked for or not, all have to be readable.
-/

set_option autoImplicit false

namespace MutantSieve

namespace Decode

structure LocationFields where
  «class» : Option String := none
  method : Option String := none
  descriptor : Option String := none

def LocationFields.step (f : LocationFields) (name : String) (d : Data) :
    Decoded LocationFields :=
  match name with
  | "class" => do return { f with «class» := ← fill text d f.class }
  | "method" => do return { f with method := ← fill text d f.method }
  | "descriptor" => do return { f with descriptor := ← fill text d f.descriptor }
  | _ => skip d f

def location : Data → Decoded Location
  | .record ms closed => do
    let f ← record LocationFields.step {} ms closed
    return ⟨← present f.class, ← present f.method, ← present f.descriptor⟩
  | .list ds closed => do
    let («class», ds) ← next text ds
    let (method, ds) ← next text ds
    let (descriptor, ds) ← next text ds
    finished closed ds
    return ⟨«class», method, descriptor⟩
  | _ => .error .malformed

structure MutationFields where
  location : Option Location := none
  index : Option UInt64 := none
  mutator : Option Mutator := none
  description : Option String := none
  filename : Option (Option String) := none
  line : Option (Option UInt32) := none

def MutationFields.step (f : MutationFields) (name : String) (d : Data) :
    Decoded MutationFields :=
  match name with
  | "location" => do return { f with location := ← fill Decode.location d f.location }
  | "index" => do return { f with index := ← fill word64 d f.index }
  | "mutator" => do
    return { f with mutator := ← fill (fun d => (text d).map Mutator.ofId) d f.mutator }
  | "description" => do return { f with description := ← fill text d f.description }
  | "filename" => do return { f with filename := ← fill (nullable text) d f.filename }
  | "line" => do return { f with line := ← fill (nullable word32) d f.line }
  | _ => .ok f

def mutation (d : Data) : Decoded Mutation :=
  if !d.clean then .error .malformed
  else
    match d with
    | .record ms closed => do
      let f ← record MutationFields.step {} ms closed
      return {
        id := ⟨← present f.location, ← present f.index, ← present f.mutator⟩
        description := f.description.getD ""
        filename := f.filename.getD none
        line := f.line.getD none }
    | _ => .error .malformed

end Decode

end MutantSieve
