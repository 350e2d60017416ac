import MutantSieve.CommandLine.Invocation
import MutantSieve.Config.Load
import MutantSieve.Report.Analysis
import MutantSieve.Report.Features

/-!
# The program

What an invocation does: the text it writes, the error it ends with, and the file tree it leaves.
-/

set_option autoImplicit false

namespace MutantSieve.CommandLine

structure World where
  files : FileTree
  environment : List (String × String)
  /-- The time that an analysis is said to take. -/
  elapsed : Elapsed
  workers : Workers (String × Partition) := .single

structure Outcome where
  code : Nat
  output : String := ""
  complaint : Option Error := none
  /-- The file written, if one was, and its text. -/
  written : Option (String × String) := none
  files : FileTree

namespace Program

structure Product where
  output : String
  written : Option (String × String) := none

def initialConfig (t : FileTree) (folder : String) (force : Bool) : Except Error Product :=
  let target := Path.join folder InputSet.configName
  if t.exists? target && !force then .error (.targetExists target)
  else
    .ok
      { output := "Wrote " ++ target ++ "\n"
        written := some (target, Config.defaultText) }

def loadConfig (w : World) (i : Invocation) : Except Error Config :=
  let loaded :=
    match i.config with
    | some path => Config.fromFile w.files w.environment path
    | none => Config.ofProject w.files w.environment i.path
  loaded.map fun c => { c with jobs := i.jobs.getD c.jobs }

def analyzerOf (c : Config) : Except Error Analyzer :=
  c.parsedSettings.map fun settings =>
    { settings := settings, jobs := c.jobs, showKept := c.showKept }

def filter (w : World) (c : Config) (format : ReportFormat) (inputs : List String) :
    Except Error String := do
  let set ← InputSet.ofPaths w.files w.environment inputs c.exclude
  let units ← ClassUnit.loadAll w.files set
  let analyzer ← analyzerOf c
  let analysis ← analyzer.analyze units w.elapsed w.workers
  return analysis.report format

def listFeatures (c : Config) (format : ReportFormat) : Except Error String := do
  let settings ← c.parsedSettings
  let list ← Registry.builtIn.describe settings
  return Report.features list format

def perform (w : World) (i : Invocation) : Except Error Product :=
  match i.command with
  | .init force => initialConfig w.files i.path force
  | .features settings => do
    let c ← loadConfig w i
    let text ←
      listFeatures { c with settings := c.settings ++ settings } (i.format.getD c.format)
    return { output := text }
  | .filter inputs settings exclude hideKept => do
    let c ← loadConfig w i
    let c := {
      c with
      settings := c.settings ++ settings
      exclude := c.exclude ++ exclude
      showKept := c.showKept && !hideKept }
    let text ← filter w c (i.format.getD c.format) inputs
    return { output := text }

def Product.applied (p : Product) (t : FileTree) : Except Error FileTree :=
  match p.written with
  | none => .ok t
  | some (path, text) => t.write path text

def versionText : String := "retfilter 0.3.1\n"

def failed (w : World) (e : Error) : Outcome :=
  if e.isFatal then { code := 101, files := w.files }
  else { code := 1, complaint := some e, files := w.files }

/-- A run of the program. A command line that leads nowhere ends with code two, but for questions
about the program; any other error ends with code one, or with another where it is fatal. -/
def run (w : World) (args : List String) : Outcome :=
  match read args with
  | .error .help => { code := 0, files := w.files }
  | .error .version => { code := 0, output := versionText, files := w.files }
  | .error _ => { code := 2, files := w.files }
  | .ok i =>
    match perform w i with
    | .error e => failed w e
    | .ok p =>
      match p.applied w.files with
      | .error e => failed w e
      | .ok files => { code := 0, output := p.output, written := p.written, files := files }

end Program

end MutantSieve.CommandLine
