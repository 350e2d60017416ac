import MutantSieve.Files.Path

/-!
# File trees

A tree of files and folders with a current folder in it. A path is followed part by part: every part
but the last has to lead to a folder, and two dots lead to the folder around. Neither a name nor a
path may be longer than a limit.
-/

set_option autoImplicit false

namespace MutantSieve

inductive FileNode where
  | file (content : ByteArray)
  | folder (entries : List (String × FileNode))
  deriving Inhabited

structure FileTree where
  root : List (String × FileNode)
  /-- The names that lead from the root to the current folder. -/
  here : List String

inductive Found where
  | file (content : ByteArray)
  | folder (place : List String) (entries : List (String × FileNode))
  | missing
  /-- The path cannot be followed, for another reason than that something is missing. -/
  | barred

namespace FileNode

def at? : List String → FileNode → Option FileNode
  | [], node => some node
  | name :: rest, folder entries =>
    match entries.lookup name with
    | some node => at? rest node
    | none => none
  | _ :: _, file _ => none

def putEntry (name : String) (node : FileNode) :
    List (String × FileNode) → List (String × FileNode)
  | [] => [(name, node)]
  | (n, old) :: rest =>
    if n = name then (n, node) :: rest else (n, old) :: putEntry name node rest

def put (content : ByteArray) : List String → FileNode → Option FileNode
  | [], folder _ => none
  | [], file _ => some (file content)
  | [name], folder entries =>
    match entries.lookup name with
    | some (folder _) => none
    | _ => some (folder (putEntry name (file content) entries))
  | name :: rest, folder entries =>
    match entries.lookup name with
    | some node => (put content rest node).map fun node => folder (putEntry name node entries)
    | none => none
  | _ :: _, file _ => none

/-- Puts a node at a place. Folders that are missing on the way are made, and a folder is joined
with one that is there. -/
def plant (node : FileNode) : List String → List (String × FileNode) → List (String × FileNode)
  | [], entries => entries
  | [name], entries =>
    match entries.lookup name, node with
    | some (folder old), folder new =>
      putEntry name (folder (new.foldl (fun es e => putEntry e.1 e.2 es) old)) entries
    | _, _ => putEntry name node entries
  | name :: rest, entries =>
    match entries.lookup name with
    | some (folder inner) => putEntry name (folder (plant node rest inner)) entries
    | _ => putEntry name (folder (plant node rest [])) entries

end FileNode

namespace FileTree

def node (t : FileTree) : FileNode := .folder t.root

def at? (t : FileTree) (place : List String) : Option FileNode := t.node.at? place

/-- The parts of a path as they are followed. A slash at the end asks for a folder, like a dot. -/
def steps (path : String) : List (List Char) :=
  let parts := Path.splitSlash path.toList
  let named := parts.filter fun p => !p.isEmpty
  if parts.getLast? == some [] && !named.isEmpty then named ++ [['.']] else named

def longestName : Nat := 255

def longestPath : Nat := 4095

/-- Follows the parts of a path from a place. A name may lead to nothing only at the end. -/
def follow (t : FileTree) : List String → List (List Char) → Except Found (List String)
  | place, [] => .ok place
  | place, part :: rest =>
    match t.at? place with
    | none => .error .missing
    | some (.file _) => .error .barred
    | some (.folder _) =>
      if longestName < (String.ofList part).utf8ByteSize then .error .barred
      else if part = ['.'] then follow t place rest
      else if part = ['.', '.'] then follow t place.dropLast rest
      else follow t (place ++ [String.ofList part]) rest

/-- The place that a path leads to, whether there is something or not. A path with a null character
can not be followed. -/
def place (t : FileTree) (path : String) : Except Found (List String) :=
  if path.isEmpty then .error .missing
  else if longestPath < path.utf8ByteSize then .error .barred
  else if path.toList.contains '\x00' then .error .barred
  else t.follow (if Path.isAbsolute path then [] else t.here) (steps path)

def find (t : FileTree) (path : String) : Found :=
  match t.place path with
  | .error found => found
  | .ok place =>
    match t.at? place with
    | none => .missing
    | some (.file content) => .file content
    | some (.folder entries) => .folder place entries

def isFile (t : FileTree) (path : String) : Bool :=
  match t.find path with
  | .file _ => true
  | _ => false

def isFolder (t : FileTree) (path : String) : Bool :=
  match t.find path with
  | .folder .. => true
  | _ => false

def exists? (t : FileTree) (path : String) : Bool := t.isFile path || t.isFolder path

def content? (t : FileTree) (path : String) : Option ByteArray :=
  match t.find path with
  | .file content => some content
  | _ => none

def readText (t : FileTree) (path : String) : Except Error String :=
  match t.find path with
  | .missing => .error (.fileNotFound path)
  | .barred | .folder .. => .error .io
  | .file content =>
    match String.fromUTF8? content with
    | some text => .ok text
    | none => .error .io

def write (t : FileTree) (path : String) (text : String) : Except Error FileTree :=
  match t.place path with
  | .error _ => .error .io
  | .ok place =>
    match FileNode.put text.toUTF8 place t.node with
    | some (.folder root) => .ok { t with root := root }
    | _ => .error .io

end FileTree

end MutantSieve
