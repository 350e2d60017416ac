import MutantSieve.Files.IgnoreRules

/-!
# Ignore levels

Folders may hold files with ignore rules: `.ignore`, and inside a repository `.gitignore` and the
file `info/exclude` of the repository. Of the files of one kind the deepest that says anything about
a path decides, and of the kinds the first in the order above. A user may have further rules for all
repositories, which decide last.

A rule sees a path as text, from behind the text of its own folder. A path that spells the folder in
another way, such as with more dots, is seen whole.
-/

set_option autoImplicit false

namespace MutantSieve

structure IgnoreLevel where
  /-- The path of the folder, without the mark of the current folder in front. -/
  root : String
  /-- Whether the folder lies above the one that is walked through. -/
  above : Bool
  ignore : List IgnoreRule
  git : List IgnoreRule
  exclude : List IgnoreRule
  isRepository : Bool

namespace IgnoreLevel

def unmarked (path : String) : String := Path.without "./" path

def rulesAt (t : FileTree) (path : String) : List IgnoreRule :=
  match t.content? path with
  | some content => IgnoreRule.ofContent content
  | none => []

/-- The folder of a repository that a file in its place names. A relative path leads from the
current folder. -/
def namedFolder (content : ByteArray) : Option String :=
  (IgnoreRule.firstLine content).bind (Path.behind? "gitdir: ")

/-- The folder that a repository shares with others, which a file in its own folder names. A path
that starts with a dot leads from there, any other relative path from the current folder. -/
def sharedFolder (t : FileTree) (folder : String) : Option String := do
  let content ← t.content? (Path.join folder "commondir")
  let line ← IgnoreRule.firstLine content
  return if line.toList.head? == some '.' then Path.join folder line else line

def repositoryFolder (t : FileTree) (folder : String) : Option String :=
  let path := Path.join folder ".git"
  match t.content? path with
  | some content => (namedFolder content).bind (sharedFolder t)
  | none => some path

def excludedIn (t : FileTree) (folder : String) : List IgnoreRule :=
  match repositoryFolder t folder with
  | some path => rulesAt t (Path.join path "info/exclude")
  | none => []

def ofFolder (t : FileTree) (above : Bool) (folder : String) : IgnoreLevel :=
  { root := unmarked folder
    above := above
    ignore := rulesAt t (Path.join folder ".ignore")
    git := rulesAt t (Path.join folder ".gitignore")
    exclude := excludedIn t folder
    isRepository :=
      t.exists? (Path.join folder ".git") || t.exists? (Path.join folder ".jj") }

def seen (l : IgnoreLevel) (path : String) : String :=
  let path := unmarked path
  if Path.same l.root "." || !path.toList.contains '/' then path
  else
    match Path.behind? l.root path with
    | some rest => Path.without "/" rest
    | none => path

structure Entry where
  /-- Its path, which starts with the path of that folder. -/
  path : String
  /-- Its path for the levels above. -/
  absolute : String
  isFolder : Bool

def judge (rules : IgnoreLevel → List IgnoreRule) (e : Entry) (l : IgnoreLevel) : Option Bool :=
  IgnoreRule.judge (rules l) (l.seen (if l.above then e.absolute else e.path)) e.isFolder

def upToRepository : List IgnoreLevel → List IgnoreLevel
  | [] => []
  | l :: rest => if l.isRepository then [l] else l :: upToRepository rest

/-- What some levels, the deepest first, say about an entry. The rules of repositories, and those of
the user for repositories, count only inside one. -/
def verdict (levels : List IgnoreLevel) (personal : IgnoreLevel) (e : Entry) : Option Bool :=
  let inRepository := levels.any IgnoreLevel.isRepository
  let gitLevels := if inRepository then upToRepository levels else []
  let personalLevels := if inRepository then [personal] else []
  (levels.findSome? (judge IgnoreLevel.ignore e)).or
    ((gitLevels.findSome? (judge IgnoreLevel.git e)).or
      ((gitLevels.findSome? (judge IgnoreLevel.exclude e)).or
        (personalLevels.findSome? (judge IgnoreLevel.git e))))

end IgnoreLevel

end MutantSieve
