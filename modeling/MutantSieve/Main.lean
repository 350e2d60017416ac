import MutantSieve.CommandLine.Program

/-!
# Command line

Collects the part of the file system and of the environment that a run can depend on, runs the
program on it, and carries out what comes of it.
-/

set_option autoImplicit false

namespace MutantSieve.CommandLine

def namesOf (path : String) : List String :=
  (Path.components path).filterMap fun c =>
    match c with
    | .name text => some text
    | _ => none

partial def loadNode (path : String) : IO (Option FileNode) := do
  try
    let real ← IO.FS.realPath path
    if ← real.isDir then
      let mut entries : List (String × FileNode) := []
      for entry in ← real.readDir do
        match ← loadNode entry.path.toString with
        | some node => entries := (entry.fileName, node) :: entries
        | none => pure ()
      return some (.folder entries)
    else if ← real.pathExists then return some (.file (← IO.FS.readBinFile path))
    else return none
  catch _ => return none

def addPath (path : String) (root : List (String × FileNode)) :
    IO (List (String × FileNode)) := do
  match ← loadNode path with
  | none => return root
  | some node => return FileNode.plant node (namesOf (← IO.FS.realPath path).toString) root

def addFile (path : String) (root : List (String × FileNode)) :
    IO (List (String × FileNode)) := do
  try
    if ← (← IO.FS.realPath path).isDir then return root else addPath path root
  catch _ => return root

def sideFiles : List String :=
  [".ignore", ".gitignore", ".git", ".git/info/exclude", ".jj", InputSet.configName,
   ".retfilter/" ++ InputSet.configName]

mutual

def foldersAt (path : String) : FileNode → List String
  | .file _ => []
  | .folder entries => path :: foldersAmong path entries

def foldersAmong (folder : String) : List (String × FileNode) → List String
  | [] => []
  | (name, node) :: rest => foldersAt (Path.join folder name) node ++ foldersAmong folder rest

end

def addRepository (here : List String) (folder : String) (root : List (String × FileNode)) :
    IO (List (String × FileNode)) := do
  let t : FileTree := { root := root, here := here }
  match (t.content? (Path.join folder ".git")).bind IgnoreLevel.namedFolder with
  | none => return root
  | some named => do
    let root ← addFile (Path.join named "commondir") root
    match IgnoreLevel.sharedFolder { t with root := root } named with
    | some shared => addFile (Path.join shared "info/exclude") root
    | none => return root

def upwards (names : List String) : List String :=
  (List.range (names.length + 1)).map fun n => "/" ++ String.intercalate "/" (names.take n)

def namedPaths (i : Invocation) : List String :=
  let inputs :=
    match i.command with
    | .filter inputs .. => inputs
    | _ => []
  i.config.toList ++ inputs

def addFolder (path : String) (root : List (String × FileNode)) :
    IO (List (String × FileNode)) := do
  try
    let real ← IO.FS.realPath path
    if ← real.isDir then return FileNode.plant (.folder []) (namesOf real.toString) root
    else return root
  catch _ => return root

def addPersonal (here : List String) (environment : List (String × String))
    (root : List (String × FileNode)) : IO (List (String × FileNode)) := do
  let mut root := root
  for path in PersonalRules.settingsFiles environment do
    root ← addFile path root
  match PersonalRules.file? { root := root, here := here } environment with
  | some path => addFile path root
  | none => return root

def loadTree (i : Invocation) (environment : List (String × String)) : IO FileTree := do
  let here := namesOf (← IO.currentDir).toString
  let mut root : List (String × FileNode) := []
  for path in namedPaths i do
    root ← addPath path root
  let mut folders := upwards here
  for path in i.path :: namedPaths i do
    root ← addFolder path root
    try
      folders := folders ++ upwards (namesOf (← IO.FS.realPath path).toString)
    catch _ => pure ()
  for folder in folders do
    root ← addFolder folder root
    root ← addFolder (Path.join folder ".git") root
    for name in sideFiles ++ [Path.join i.path InputSet.configName,
        Path.join (Path.join i.path ".retfilter") InputSet.configName] do
      root ← addFile (Path.join folder name) root
    root ← addFolder (Path.join folder ".jj") root
  for path in namedPaths i do
    match ({ root := root, here := here } : FileTree).find path with
    | .folder _ entries => folders := folders ++ foldersAmong path entries
    | _ => pure ()
  for folder in folders do
    root ← addRepository here folder root
  root ← addPersonal here environment root
  return { root := root, here := here }

def loadEnvironment : IO (List (String × String)) := do
  let bytes ← IO.FS.readBinFile "/proc/self/environ"
  let text := (String.fromUTF8? bytes).getD ""
  return (text.splitOn "\x00").filterMap fun entry =>
    match entry.splitOn "=" with
    | name :: value => if value.isEmpty then none else some (name, String.intercalate "=" value)
    | [] => none

def usage : String :=
  "Usage: retfilter [OPTIONS] <filter|features|init> [ARGS]\n"

def loadWorld (args : List String) : IO World := do
  let environment ← loadEnvironment
  match read args with
  | .ok i => return { files := ← loadTree i environment, environment, elapsed := ⟨0⟩ }
  | .error _ => return { files := ⟨[], []⟩, environment, elapsed := ⟨0⟩ }

end MutantSieve.CommandLine

open MutantSieve MutantSieve.CommandLine in
/-- Runs the program twice: the first run shows how long it takes. -/
def main (args : List String) : IO UInt32 := do
  let world ← loadWorld args
  let begun ← IO.monoNanosNow
  let trial := Program.run world args
  if trial.code = 2 then IO.eprint usage
  if read args matches .error .help then IO.print usage
  let ended ← IO.monoNanosNow
  let outcome := Program.run { world with elapsed := ⟨ended - begun⟩ } args
  match outcome.written with
  | some (path, text) => IO.FS.writeFile path text
  | none => pure ()
  IO.print outcome.output
  match outcome.complaint with
  | some e => IO.eprintln ("Error: " ++ e.message)
  | none => pure ()
  return UInt32.ofNat outcome.code
