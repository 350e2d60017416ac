import MutantSieve.Files.PersonalRules

/-!
# Walks through folders

A walk finds the files in a folder and in all folders below that no rule ignores. Files and folders
with hidden names are ignored unless a rule keeps them. The rules of the folders above and those of
the user count as well.
-/

set_option autoImplicit false

namespace MutantSieve

structure Walk where
  tree : FileTree
  /-- The rules of the user for all repositories. -/
  personal : IgnoreLevel
  /-- The path of the folder as it was given. -/
  start : String
  /-- The names that lead to the folder from the root. -/
  place : List String

namespace Walk

def absolute (w : Walk) (depth : Nat) : String :=
  "/" ++ String.intercalate "/" (w.place.take depth)

def levelsAbove (w : Walk) : List IgnoreLevel :=
  (List.range w.place.length).reverse.map fun depth =>
    IgnoreLevel.ofFolder w.tree true (w.absolute depth)

/-- The path of an entry from the folder of the walk on. It is cut off as text; where the folder is
the current one in any spelling, only its shortest mark is. -/
def inside (w : Walk) (path : String) : String :=
  let path := IgnoreLevel.unmarked path
  if Path.same w.start "." then path
  else Path.without "/" (Path.without (IgnoreLevel.unmarked w.start) path)

def entry (w : Walk) (path : String) (isFolder : Bool) : IgnoreLevel.Entry :=
  { path := IgnoreLevel.unmarked path
    absolute := Path.join (w.absolute w.place.length) (w.inside path)
    isFolder := isFolder }

/-- Whether a name is hidden: it starts with a dot and does not end with one. -/
def isHidden (name : String) : Bool :=
  name.toList.head? == some '.' && name.toList.getLast? != some '.'

def ignores (w : Walk) (levels : List IgnoreLevel) (path name : String) (isFolder : Bool) : Bool :=
  (IgnoreLevel.verdict levels w.personal (w.entry path isFolder)).getD (isHidden name)

mutual

def filesAt (w : Walk) (levels : List IgnoreLevel) (path : String) : FileNode → List String
  | .file _ => [path]
  | .folder entries =>
    filesIn w (IgnoreLevel.ofFolder w.tree false path :: levels) path entries

def filesIn (w : Walk) (levels : List IgnoreLevel) (folder : String) :
    List (String × FileNode) → List String
  | [] => []
  | (name, node) :: rest =>
    let path := Path.join folder name
    let isFolder :=
      match node with
      | .folder _ => true
      | .file _ => false
    let here :=
      if w.ignores levels path name isFolder then [] else filesAt w levels path node
    here ++ filesIn w levels folder rest

end

def files (w : Walk) (entries : List (String × FileNode)) : List String :=
  filesAt w w.levelsAbove w.start (.folder entries)

end Walk

end MutantSieve
