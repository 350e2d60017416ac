import MutantSieve.Binary.Basic
import MutantSieve.Error
import MutantSieve.Mutation

/-!
# Interceptors

An interceptor decides which mutations of a class are dropped. It is a single filter or a group of
interceptors, and a group drops what one of its members drops. Every call of a filter is an event:
its opening and closing around the work on a class, and each question put to it. An operation
returns its events along with its result, also when it fails.
-/

set_option autoImplicit false

namespace MutantSieve

structure Filter where
  name : String
  verdict : ClassTree → Mutation → Except Error Bool
  /-- Whether an observer follows the calls of this filter. -/
  observed : Bool := false

inductive Interceptor where
  | filter (member : Filter)
  | group (name : String) (members : List Interceptor)

inductive Event where
  | opened (filter : Filter) (className : String)
  | asked (filter : Filter) (mutation : Mutation)
  | closed (filter : Filter)

structure Traced (α : Type) where
  events : List Event
  result : Except Error α

namespace Traced

variable {α β : Type}

def value (a : α) : Traced α := ⟨[], .ok a⟩

/-- Goes on after a success; a failure stands, with the events up to it. -/
def andThen (t : Traced α) (f : α → Traced β) : Traced β :=
  match t.result with
  | .ok a => ⟨t.events ++ (f a).events, (f a).result⟩
  | .error e => ⟨t.events, .error e⟩

def map (f : α → β) (t : Traced α) : Traced β := ⟨t.events, t.result.map f⟩

@[simp] theorem map_result (f : α → β) (t : Traced α) : (t.map f).result = t.result.map f := rfl

theorem andThen_ok {t : Traced α} {a : α} (f : α → Traced β) (h : t.result = .ok a) :
    (t.andThen f).result = (f a).result := by
  simp [andThen, h]

theorem andThen_error {t : Traced α} {e : Error} (f : α → Traced β) (h : t.result = .error e) :
    (t.andThen f).result = .error e := by
  simp [andThen, h]

end Traced

structure FilteredMutation where
  mutation : Mutation
  filter : String
  deriving DecidableEq, Repr

structure Partition where
  kept : List Mutation := []
  filtered : List FilteredMutation := []
  deriving DecidableEq, Repr

/-- The share of `part` in `whole` as a double; nothing has the share zero in nothing. -/
def share (part whole : Nat) : Binary :=
  if whole = 0 then .finite false 0 Binary.double.least
  else Binary.double.over (Binary.double.ofInt part) (Binary.double.ofInt whole)

namespace Partition

def keptCount (p : Partition) : Nat := p.kept.length

def filteredCount (p : Partition) : Nat := p.filtered.length

def rate (p : Partition) : Binary := share p.filteredCount (p.keptCount + p.filteredCount)

end Partition

namespace Interceptor

def compound (members : List Interceptor) : Interceptor := group "compound" members

def name : Interceptor → String
  | filter f => f.name
  | group name _ => name

def memberNames : Interceptor → List String
  | filter _ => []
  | group _ members => members.map name

def role : Interceptor → String
  | _ => "filter"

mutual

def leaves : Interceptor → List Filter
  | filter f => [f]
  | group _ members => leavesAll members

def leavesAll : List Interceptor → List Filter
  | [] => []
  | i :: rest => i.leaves ++ leavesAll rest

end

mutual

def begin (c : ClassTree) : Interceptor → List Event
  | filter f => [.opened f c.name]
  | group _ members => beginAll c members

def beginAll (c : ClassTree) : List Interceptor → List Event
  | [] => []
  | i :: rest => begin c i ++ beginAll c rest

end

mutual

def finish : Interceptor → List Event
  | filter f => [.closed f]
  | group _ members => finishAll members

def finishAll : List Interceptor → List Event
  | [] => []
  | i :: rest => i.finish ++ finishAll rest

end

mutual

/-- Whether a mutation is dropped. The members of a group are asked in turn up to the first that
drops it. -/
def isFiltered (c : ClassTree) (m : Mutation) : Interceptor → Traced Bool
  | filter f => ⟨[.asked f m], f.verdict c m⟩
  | group _ members => anyFilters c m members

def anyFilters (c : ClassTree) (m : Mutation) : List Interceptor → Traced Bool
  | [] => .value false
  | i :: rest =>
    (isFiltered c m i).andThen fun dropped =>
      if dropped then .value true else anyFilters c m rest

end

mutual

def filteredBy (c : ClassTree) (m : Mutation) : Interceptor → Traced (Option String)
  | filter f =>
    (isFiltered c m (filter f)).map fun dropped => if dropped then some f.name else none
  | group _ members => firstFilter c m members

def firstFilter (c : ClassTree) (m : Mutation) : List Interceptor → Traced (Option String)
  | [] => .value none
  | i :: rest =>
    (filteredBy c m i).andThen fun found =>
      match found with
      | some name => .value (some name)
      | none => firstFilter c m rest

end

def intercept (i : Interceptor) (c : ClassTree) : List Mutation → Traced (List Mutation)
  | [] => .value []
  | m :: rest =>
    (i.isFiltered c m).andThen fun dropped =>
      (i.intercept c rest).map fun kept => if dropped then kept else m :: kept

def partition (i : Interceptor) (c : ClassTree) : List Mutation → Traced Partition
  | [] => .value {}
  | m :: rest =>
    (i.filteredBy c m).andThen fun found =>
      (i.partition c rest).map fun p =>
        match found with
        | some name => { p with filtered := ⟨m, name⟩ :: p.filtered }
        | none => { p with kept := m :: p.kept }

end Interceptor

inductive Batch where
  | partition (mutations : List Mutation)
  | intercept (mutations : List Mutation)

inductive Batch.Answer where
  | parted (result : Except Error Partition)
  | kept (result : Except Error (List Mutation))

namespace Interceptor

def answer (i : Interceptor) (c : ClassTree) : Batch → List Event × Batch.Answer
  | .partition ms => ((i.partition c ms).events, .parted (i.partition c ms).result)
  | .intercept ms => ((i.intercept c ms).events, .kept (i.intercept c ms).result)

/-- The work on one class: the beginning, the batches one after another, and the end, which comes
whatever the answers are. -/
def scope (i : Interceptor) (c : ClassTree) (batches : List Batch) :
    List Event × List Batch.Answer :=
  let answers := batches.map (i.answer c)
  (i.begin c ++ answers.flatMap Prod.fst ++ i.finish, answers.map Prod.snd)

end Interceptor

end MutantSieve
