import MutantSieve.Decode.Basic
import MutantSieve.Report.Format

/-!
# Configurations

A configuration is taken from layers of data, of which later ones win: sections are combined entry
by entry, and anything else is replaced as a whole. In a file a table may stand for another value,
which it holds under a reserved name.
-/

set_option autoImplicit false

namespace MutantSieve

structure Config where
  exclude : List String := []
  settings : List String := []
  /-- The number of workers; zero leaves the choice to the program. -/
  jobs : Nat := 0
  format : ReportFormat := .text
  showKept : Bool := true
  deriving DecidableEq, Repr

namespace Config

def defaultText : String :=
  String.intercalate "\n"
    ["# retfilter configuration",
     "#",
     "# Place this file at retfilter.toml or .retfilter/retfilter.toml in the",
     "# project directory. Any value can be overridden with an environment variable",
     "# such as RETFILTER_OUTPUT__FORMAT=json.",
     "",
     "# Glob patterns skipped when an input directory is walked.",
     "exclude = []",
     "",
     "[features]",
     "# Toggles applied in order; later entries win.",
     "# \"-FRETEQUIV\" disables the equivalent return-value filter.",
     "settings = []",
     "",
     "[analysis]",
     "# Parallel workers, 0 = number of CPUs.",
     "jobs = 0",
     "",
     "[output]",
     "# text, json or markdown",
     "format = \"text\"",
     "# List retained mutations as well as filtered ones.",
     "show_kept = true",
     ""]

abbrev Members := List (Option String × Data)

def find? (name : String) (ms : Members) : Option Data := ms.lookup (some name)

def putMember (name : Option String) (d : Data) : Members → Members
  | [] => [(name, d)]
  | (n, old) :: rest => if n = name then (n, d) :: rest else (n, old) :: putMember name d rest

mutual

def overlay (below : Data) : Data → Data
  | .record ms closed =>
    match below with
    | .record under _ => .record (overlayMembers under ms) closed
    | _ => .record (overlayMembers [] ms) closed
  | d => d

def overlayMembers (under : Members) : Members → Members
  | [] => under
  | (name, d) :: rest =>
    match under.lookup name with
    | some old => overlayMembers (putMember name (overlay old d) under) rest
    | none => overlayMembers (putMember name (overlay .null d) under) rest

end

/-- The name under which a table may hold the value that it stands for. -/
def valueKey : String := "___figment_value_value"

/-- The name for the origin of such a value, which a file may not tell. -/
def originKey : String := "___figment_value_id"

mutual

def unwrap : Data → Option Data
  | .record ms closed => do
    let ms ← unwrapMembers ms
    if (find? originKey ms).isSome then none
    else some ((find? valueKey ms).getD (.record ms closed))
  | .list ds closed => do return .list (← unwrapItems ds) closed
  | d => some d

def unwrapMembers : Members → Option Members
  | [] => some []
  | (name, d) :: rest => do return (name, ← unwrap d) :: (← unwrapMembers rest)

def unwrapItems : List Data → Option (List Data)
  | [] => some []
  | d :: rest => do return (← unwrap d) :: (← unwrapItems rest)

end

def layerOf (d : Data) : Option Data :=
  match d with
  | .record ms closed =>
    if d.intact then (unwrapMembers ms).map fun ms => .record ms closed else none
  | _ => none

/-- The fields of a section, which may also be given as a list in order. Missing ones keep their
defaults. -/
def sectionFields (names : List String) : Data → Option (List (Option Data))
  | .record ms _ => some (names.map fun name => find? name ms)
  | .list ds _ => some ((List.range names.length).map fun i => ds[i]?)
  | _ => none

def optional {α : Type} (decode : Data → Decoded α) (default : α) : Option Data → Option α
  | none => some default
  | some d => (decode d).toOption

def formatOf (d : Data) : Decoded ReportFormat :=
  match d with
  | .text (some s) => Decode.present (ReportFormat.ofName? s)
  | _ => .error .malformed

def fieldsAt (ms : Members) (name : String) (names : List String) :
    Option (List (Option Data)) :=
  match find? name ms with
  | none => some (names.map fun _ => none)
  | some d => sectionFields names d

def ofMembers (ms : Members) : Option Config := do
  let exclude ← optional (Decode.list Decode.text) [] (find? "exclude" ms)
  let features ← fieldsAt ms "features" ["settings"]
  let settings ← optional (Decode.list Decode.text) [] (features[0]?.getD none)
  let analysis ← fieldsAt ms "analysis" ["jobs"]
  let jobs ← optional (Decode.natural 64) 0 (analysis[0]?.getD none)
  let output ← fieldsAt ms "output" ["format", "show_kept"]
  let format ← optional formatOf .text (output[0]?.getD none)
  let showKept ← optional Decode.bool true (output[1]?.getD none)
  return ⟨exclude, settings, jobs, format, showKept⟩

def ofLayers (layers : List Data) : Option Config :=
  match layers.foldl overlay (.record [] true) with
  | .record ms _ => ofMembers ms
  | _ => none

end Config

end MutantSieve
