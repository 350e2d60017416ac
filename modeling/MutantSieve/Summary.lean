import MutantSieve.Decode.Mutation
import MutantSieve.Elapsed
import MutantSieve.Interceptor
import MutantSieve.Json.Encode

/-!
# Summaries

The counts of an analysis: mutations kept and filtered, in all, by filter and by mutator. The tables
of counts are in the order of their keys.
-/

set_option autoImplicit false

namespace MutantSieve

/-- A table of values in the order of its keys, each key once. -/
abbrev Tally (α : Type) := List (String × α)

namespace Tally

variable {α : Type}

def update (key : String) (change : Option α → α) : Tally α → Tally α
  | [] => [(key, change none)]
  | (k, a) :: rest =>
    match Ord.compare key k with
    | .lt => (key, change none) :: (k, a) :: rest
    | .eq => (k, change (some a)) :: rest
    | .gt => (k, a) :: update key change rest

end Tally

structure MutatorCount where
  total : Nat := 0
  filtered : Nat := 0
  deriving DecidableEq, Repr, Inhabited

structure Summary where
  totalClasses : Nat
  totalMutations : Nat
  kept : Nat
  filtered : Nat
  rate : Binary
  features : List String
  byFilter : Tally Nat
  byMutator : Tally MutatorCount
  duration : Elapsed
  deriving DecidableEq, Repr, Inhabited

namespace Summary

def countFilter (t : Tally Nat) (name : String) : Tally Nat :=
  t.update name fun n => n.getD 0 + 1

def countMutator (filtered : Bool) (t : Tally MutatorCount) (label : String) :
    Tally MutatorCount :=
  t.update label fun n =>
    { total := (n.getD {}).total + 1
      filtered := (n.getD {}).filtered + if filtered then 1 else 0 }

def filterNames (p : Partition) : List String := p.filtered.map FilteredMutation.filter

def keptLabels (p : Partition) : List String := p.kept.map fun m => m.id.mutator.label

def filteredLabels (p : Partition) : List String :=
  p.filtered.map fun e => e.mutation.id.mutator.label

def countMutators (t : Tally MutatorCount) (p : Partition) : Tally MutatorCount :=
  (filteredLabels p).foldl (countMutator true) ((keptLabels p).foldl (countMutator false) t)

def total (ns : List Nat) : Nat := ns.foldr (· + ·) 0

def ofResults (results : List Partition) (features : List String) (duration : Elapsed) : Summary :=
  let kept := total (results.map Partition.keptCount)
  let filtered := total (results.map Partition.filteredCount)
  { totalClasses := results.length
    totalMutations := kept + filtered
    kept := kept
    filtered := filtered
    rate := share filtered (kept + filtered)
    features := features
    byFilter := (results.flatMap filterNames).foldl countFilter []
    byMutator := results.foldl countMutators []
    duration := duration }

def MutatorCount.toJson (n : MutatorCount) : Json :=
  .record [("total", .nat n.total), ("filtered", .nat n.filtered)]

end Summary

def Elapsed.toJson (e : Elapsed) : Json := .double e.seconds

def Summary.toJson (s : Summary) : Json :=
  .record
    [("total_classes", .nat s.totalClasses), ("total_mutations", .nat s.totalMutations),
     ("kept", .nat s.kept), ("filtered", .nat s.filtered), ("filter_rate", .double s.rate),
     ("features", .list (s.features.map .text)),
     ("by_filter", .record (s.byFilter.map fun e => (e.1, .nat e.2))),
     ("by_mutator", .record (s.byMutator.map fun e => (e.1, Summary.MutatorCount.toJson e.2))),
     ("duration", s.duration.toJson)]

namespace Decode

/-- A number of seconds. Some numbers of the right shape stand for no span of time. -/
def elapsed (d : Data) : Decoded Elapsed :=
  match float Binary.double d with
  | .error e => .error e
  | .ok x =>
    match Elapsed.ofSeconds x with
    | some e => .ok e
    | none => .error .unrepresentable

/-- A table of values by name. Of a repeated name the last value counts. -/
def tally {α : Type} (decode : Data → Decoded α) : Data → Decoded (Tally α)
  | .record ms closed =>
    record
      (fun (t : Tally α) name d => (decode d).map fun a => t.update name fun _ => a) [] ms closed
  | _ => .error .malformed

structure CountFields where
  total : Option Nat := none
  filtered : Option Nat := none

def CountFields.step (f : CountFields) (name : String) (d : Data) : Decoded CountFields :=
  match name with
  | "total" => do return { f with total := ← fill (natural 64) d f.total }
  | "filtered" => do return { f with filtered := ← fill (natural 64) d f.filtered }
  | _ => skip d f

def mutatorCount : Data → Decoded MutatorCount
  | .record ms closed => do
    let f ← record CountFields.step {} ms closed
    return ⟨← present f.total, ← present f.filtered⟩
  | .list ds closed => do
    let (total, ds) ← next (natural 64) ds
    let (filtered, ds) ← next (natural 64) ds
    finished closed ds
    return ⟨total, filtered⟩
  | _ => .error .malformed

structure SummaryFields where
  totalClasses : Option Nat := none
  totalMutations : Option Nat := none
  kept : Option Nat := none
  filtered : Option Nat := none
  rate : Option Binary := none
  features : Option (List String) := none
  byFilter : Option (Tally Nat) := none
  byMutator : Option (Tally MutatorCount) := none
  duration : Option Elapsed := none

def SummaryFields.step (f : SummaryFields) (name : String) (d : Data) : Decoded SummaryFields :=
  match name with
  | "total_classes" => do
    return { f with totalClasses := ← fill (natural 64) d f.totalClasses }
  | "total_mutations" => do
    return { f with totalMutations := ← fill (natural 64) d f.totalMutations }
  | "kept" => do return { f with kept := ← fill (natural 64) d f.kept }
  | "filtered" => do return { f with filtered := ← fill (natural 64) d f.filtered }
  | "filter_rate" => do return { f with rate := ← fill (float Binary.double) d f.rate }
  | "features" => do return { f with features := ← fill (list text) d f.features }
  | "by_filter" => do return { f with byFilter := ← fill (tally (natural 64)) d f.byFilter }
  | "by_mutator" => do return { f with byMutator := ← fill (tally mutatorCount) d f.byMutator }
  | "duration" => do return { f with duration := ← fill elapsed d f.duration }
  | _ => skip d f

def summary : Data → Decoded Summary
  | .record ms closed => do
    let f ← record SummaryFields.step {} ms closed
    return {
      totalClasses := ← present f.totalClasses
      totalMutations := ← present f.totalMutations
      kept := ← present f.kept
      filtered := ← present f.filtered
      rate := ← present f.rate
      features := ← present f.features
      byFilter := ← present f.byFilter
      byMutator := ← present f.byMutator
      duration := ← present f.duration }
  | .list ds closed => do
    let (totalClasses, ds) ← next (natural 64) ds
    let (totalMutations, ds) ← next (natural 64) ds
    let (kept, ds) ← next (natural 64) ds
    let (filtered, ds) ← next (natural 64) ds
    let (rate, ds) ← next (float Binary.double) ds
    let (features, ds) ← next (list text) ds
    let (byFilter, ds) ← next (tally (natural 64)) ds
    let (byMutator, ds) ← next (tally mutatorCount) ds
    let (duration, ds) ← next elapsed ds
    finished closed ds
    return {
      totalClasses, totalMutations, kept, filtered, rate, features, byFilter, byMutator, duration }
  | _ => .error .malformed

end Decode

end MutantSieve
