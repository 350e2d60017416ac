import MutantSieve.Files.Walk

/-!
# Input sets

The unit files that a list of paths names: files as they are, and of folders the unit files in them
that are neither ignored nor excluded. The files are in the order of their paths, each once. Those
found in folders are marked as discovered.
-/

set_option autoImplicit false

namespace MutantSieve

structure InputSet where
  /-- The paths in order, each with whether it was discovered. -/
  files : List (String × Bool)
  deriving DecidableEq, Repr

namespace InputSet

def configName : String := "retfilter.toml"

def readGlobs : List String → Except Error (List (List Glob.Part))
  | [] => .ok []
  | pattern :: rest =>
    match Glob.parse? Glob.exclusion pattern with
    | none => .error (.config (.badPattern pattern))
    | some glob => (readGlobs rest).map (glob :: ·)

def globs (patterns : List String) : Except Error (List (List Glob.Part)) :=
  match readGlobs patterns with
  | .error e => .error e
  | .ok globs => if globs.any Glob.isTooDeep then .error (.config .deepPattern) else .ok globs

def excluded (exclude : List (List Glob.Part)) (path : String) : Bool :=
  exclude.any fun glob => Glob.matchesPath glob path

def relative (folder path : String) : String :=
  let names := (Path.components path).drop (Path.components folder).length
  String.intercalate "/" (names.filterMap fun c =>
    match c with
    | .name text => some text
    | _ => none)

def accepts (exclude : List (List Glob.Part)) (folder path : String) : Bool :=
  (Path.unitFormat? path).isSome && decide (Path.fileName? path ≠ some configName) &&
    !excluded exclude (relative folder path) && !excluded exclude path

/-- The unit files in a folder. A single dash, however it is spelled, stands for the standard input,
which holds none. -/
def discover (t : FileTree) (personal : IgnoreLevel) (exclude : List (List Glob.Part))
    (folder : String) (place : List String) (entries : List (String × FileNode)) : List String :=
  if Path.same folder "-" then []
  else
    (Walk.files ⟨t, personal, folder, place⟩ entries).filter fun path =>
      t.isFile path && accepts exclude folder path

/-- Puts a path in its place in the order. One with the same components is already there and
stays. -/
def insert (file : String × Bool) : List (String × Bool) → List (String × Bool)
  | [] => [file]
  | f :: rest =>
    match Path.compare file.1 f.1 with
    | .lt => file :: f :: rest
    | .eq => f :: rest
    | .gt => f :: insert file rest

def insertAll (files : List (String × Bool)) (set : List (String × Bool)) :
    List (String × Bool) :=
  files.foldl (fun set f => insert f set) set

def gather (t : FileTree) (personal : IgnoreLevel) (exclude : List (List Glob.Part)) :
    List String → Except Error (List String × List String)
  | [] => .ok ([], [])
  | path :: rest =>
    match t.find path with
    | .folder place entries =>
      (gather t personal exclude rest).map fun (named, found) =>
        (named, discover t personal exclude path place entries ++ found)
    | .file _ => (gather t personal exclude rest).map fun (named, found) => (path :: named, found)
    | .missing | .barred => .error (.fileNotFound path)

/-- The input set of some paths, under the rules that the environment names. Named files come first,
so that what is also discovered counts as named. -/
def ofPaths (t : FileTree) (environment : List (String × String)) (paths exclude : List String) :
    Except Error InputSet :=
  match globs exclude with
  | .error e => .error e
  | .ok exclude =>
    (gather t (PersonalRules.level t environment) exclude paths).map fun (named, found) =>
      ⟨insertAll (found.map fun p => (p, true)) (insertAll (named.map fun p => (p, false)) [])⟩

end InputSet

namespace ClassUnit

def load (t : FileTree) (path : String) : Except Error (List ClassUnit) :=
  match Path.unitFormat? path with
  | none => .error (.unsupportedInput path)
  | some format =>
    match t.readText path with
    | .error e => .error e
    | .ok text => (format.parse text).mapError fun r => .notUnits (some path) r.check?

def passesOver (discovered : Bool) : Error → Bool
  | .notUnits .. => discovered
  | _ => false

def loadFiles (t : FileTree) : List (String × Bool) → Except Error (List ClassUnit)
  | [] => .ok []
  | (path, discovered) :: rest =>
    match load t path with
    | .ok units => (loadFiles t rest).map (units ++ ·)
    | .error e => if passesOver discovered e then loadFiles t rest else .error e

def loadAll (t : FileTree) (inputs : InputSet) : Except Error (List ClassUnit) :=
  loadFiles t inputs.files

end ClassUnit

end MutantSieve
