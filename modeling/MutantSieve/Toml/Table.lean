import MutantSieve.Data

/-!
# Tables in TOML

A table may be opened by a header, by a header of a table inside it, or by a dotted key. Which of
these it was decides what may still be added: a header opens a table once, and a dotted key only
adds to tables that dotted keys opened.
-/

set_option autoImplicit false

namespace MutantSieve.Toml

inductive Kind where
  /-- Opened by the header of a table inside. -/
  | implicit
  /-- Opened by a dotted key. -/
  | dotted
  /-- Opened by its own header, or as an item of an array of tables. -/
  | defined
  deriving DecidableEq, Repr

inductive Node where
  | value (data : Data)
  | table (kind : Kind) (entries : List (String × Node))
  | tables (items : List (List (String × Node)))
  deriving Inhabited

structure Table where
  kind : Kind
  entries : List (String × Node)

namespace Table

def empty : Table := ⟨.defined, []⟩

def find? (t : Table) (key : String) : Option Node := t.entries.lookup key

def putEntry (key : String) (node : Node) : List (String × Node) → List (String × Node)
  | [] => [(key, node)]
  | (k, n) :: rest => if k = key then (k, node) :: rest else (k, n) :: putEntry key node rest

def put (t : Table) (key : String) (node : Node) : Table :=
  { t with entries := putEntry key node t.entries }

/-- Changes the table at the end of a path. Tables on the way that are missing are opened. Of an
array of tables the path leads through the last one. -/
def within (byKey : Bool) (change : Table → Option Table) : List String → Table → Option Table
  | [], t => change t
  | key :: path, t =>
    match t.find? key with
    | none => do
      let inner ← within byKey change path ⟨if byKey then .dotted else .implicit, []⟩
      return t.put key (.table inner.kind inner.entries)
    | some (.table kind entries) =>
      if byKey && decide (kind = .defined) then none
      else do
        let inner ← within byKey change path ⟨kind, entries⟩
        return t.put key (.table inner.kind inner.entries)
    | some (.tables items) =>
      match items.getLast? with
      | none => none
      | some last => do
        let inner ← within byKey change path ⟨.defined, last⟩
        return t.put key (.tables (items.dropLast ++ [inner.entries]))
    | some (.value _) => none

def assign (path : List String) (key : String) (d : Data) (t : Table) : Option Table :=
  within true
    (fun t =>
      if decide (t.kind = .dotted) = path.isEmpty then none
      else
        match t.find? key with
        | some _ => none
        | none => some (t.put key (.value d)))
    path t

def openTable (path : List String) (key : String) (t : Table) : Option Table :=
  within false
    (fun t =>
      match t.find? key with
      | none => some (t.put key (.table .defined []))
      | some (.table .implicit entries) => some (t.put key (.table .defined entries))
      | some _ => none)
    path t

def openItem (path : List String) (key : String) (t : Table) : Option Table :=
  within false
    (fun t =>
      match t.find? key with
      | none => some (t.put key (.tables [[]]))
      | some (.tables items) => some (t.put key (.tables (items ++ [[]])))
      | some _ => none)
    path t

end Table

def keyLE (a b : String × Data) : Bool := (Ord.compare a.1 b.1).isLE

def sorted (entries : List (String × Data)) : Data :=
  .record ((entries.mergeSort keyLE).map fun e => (some e.1, e.2)) true

mutual

def Node.toData : Node → Data
  | .value d => d
  | .table _ entries => sorted (entriesToData entries)
  | .tables items => .list (itemsToData items) true

def entriesToData : List (String × Node) → List (String × Data)
  | [] => []
  | (k, n) :: rest => (k, n.toData) :: entriesToData rest

def itemsToData : List (List (String × Node)) → List Data
  | [] => []
  | entries :: rest => sorted (entriesToData entries) :: itemsToData rest

end

def Table.toData (t : Table) : Data := sorted (entriesToData t.entries)

end MutantSieve.Toml
