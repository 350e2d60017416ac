import MutantSieve.Config.Environment
import MutantSieve.Feature
import MutantSieve.Files.InputSet

/-!
# Loading of configurations

A configuration comes from one named file, or from the two files that a project folder may hold, and
from the environment. Files that a project does not have are passed over. A relative project file is
also looked for from the folders around the current one.
-/

set_option autoImplicit false

namespace MutantSieve.Config

def readFile (t : FileTree) (path : String) : Except Error Data :=
  match t.readText path with
  | .error _ => .error (.config .unreadable)
  | .ok text =>
    match (Toml.read .v10 text).bind layerOf with
    | some layer => .ok layer
    | none => .error (.config .unreadable)

/-- The tree seen from a folder that so many of the names of the current one lead to. -/
def seenFrom (t : FileTree) (depth : Nat) : FileTree := { t with here := t.here.take depth }

/-- The layer of a project file, looked for from the current folder upwards. -/
def projectLayer (t : FileTree) (path : String) : Except Error Data :=
  let views := (List.range (t.here.length + 1)).reverse.map (seenFrom t)
  match views.find? fun view => view.isFile path with
  | some view => readFile view path
  | none => .ok (.record [] true)

def build (layers : List Data) : Except Error Config :=
  match ofLayers layers with
  | some c => .ok c
  | none => .error (.config .unreadable)

/-- The configuration of some layers and, above them, the environment, a fault in which comes before
any fault in the layers. -/
def withEnvironment (environment : List (String × String)) (layers : Except Error (List Data)) :
    Except Error Config :=
  match environmentLayer environment, layers with
  | none, _ => .error (.config .tornText)
  | some _, .error e => .error e
  | some layer, .ok layers => build (layers ++ [layer])

def fromFile (t : FileTree) (environment : List (String × String)) (path : String) :
    Except Error Config :=
  if t.exists? path then withEnvironment environment ((readFile t path).map ([·]))
  else .error (.config (.fileMissing path))

def projectFiles (folder : String) : List String :=
  [Path.join folder InputSet.configName,
   Path.join (Path.join folder ".retfilter") InputSet.configName]

def projectLayers (t : FileTree) : List String → Except Error (List Data)
  | [] => .ok []
  | path :: rest =>
    match projectLayer t path with
    | .error e => .error e
    | .ok layer => (projectLayers t rest).map (layer :: ·)

def ofProject (t : FileTree) (environment : List (String × String)) (folder : String) :
    Except Error Config :=
  withEnvironment environment (projectLayers t (projectFiles folder))

def parsedSettings (c : Config) : Except Error (List Setting) := Setting.parseAll c.settings

end MutantSieve.Config
