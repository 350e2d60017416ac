import MutantSieve.Files.Tree
import MutantSieve.Glob.Pattern
import MutantSieve.Text.Blank

/-!
# Ignore rules

A file of rules for the names in a folder and below. A rule ignores what it matches or, with an
exclamation mark in front, keeps it. Of the rules in one file the last match decides.
-/

set_option autoImplicit false

namespace MutantSieve

structure IgnoreRule where
  glob : List Glob.Part
  keeps : Bool
  onlyFolders : Bool

namespace IgnoreRule

def endsWith (s suffix : List Char) : Bool := suffix.reverse.isPrefixOf s.reverse

def marks (s : List Char) : Bool × Bool × List Char :=
  match s with
  | '\\' :: '!' :: r => (false, false, '!' :: r)
  | '\\' :: '#' :: r => (false, false, '#' :: r)
  | '!' :: '/' :: r => (true, true, r)
  | '!' :: r => (true, false, r)
  | '/' :: r => (false, true, r)
  | r => (false, false, r)

def folderMark (s : List Char) : Bool × List Char :=
  if s.getLast? = some '/' then
    let r := s.dropLast
    (true, if r.getLast? = some '\\' then r.dropLast else r)
  else (false, s)

/-- The pattern for paths below the folder of the file. One without a slash may match in any folder
below, and one that ends in folders matches only what is in them. -/
def anchored (bound : Bool) (s : List Char) : List Char :=
  let free := !bound && !s.contains '/' && decide (s ≠ ['*', '*'])
  let s := if free then '*' :: '*' :: '/' :: s else s
  if endsWith s ['/', '*', '*'] then s ++ ['/', '*'] else s

def parse? (line : List Char) : Option IgnoreRule :=
  if line.head? = some '#' then none
  else
    let s := if endsWith line ['\\', ' '] then line else Text.trimEnd line
    if s.isEmpty then none
    else
      let (keeps, bound, s) := marks s
      let (onlyFolders, s) := folderMark s
      (Glob.parse? Glob.ignoreRule (String.ofList (anchored bound s))).map fun glob =>
        ⟨glob, keeps, onlyFolders⟩

def byteLines : List UInt8 → List (List UInt8)
  | [] => []
  | b :: r =>
    if b = 10 then [] :: byteLines r
    else
      match byteLines r with
      | [] => [[b]]
      | l :: ls => if b = 13 ∧ r.head? = some 10 then l :: ls else (b :: l) :: ls

def textOf (bytes : List UInt8) : Option String := String.fromUTF8? ⟨bytes.toArray⟩

def textLines : List (List UInt8) → List (List Char)
  | [] => []
  | l :: ls =>
    match textOf l with
    | some s => s.toList :: textLines ls
    | none => []

def firstLine (content : ByteArray) : Option String :=
  (byteLines content.toList).head?.bind textOf

/-- The rules in a file, at whose start byte order marks may stand. A single rule that is nested too
deeply takes all of them away. -/
def ofContent (content : ByteArray) : List IgnoreRule :=
  match textLines (byteLines content.toList) with
  | [] => []
  | first :: rest =>
    let rules := ((first.dropWhile (· = '\uFEFF')) :: rest).filterMap parse?
    if rules.any fun r => Glob.isTooDeep r.glob then [] else rules

def applies (r : IgnoreRule) (path : String) (isFolder : Bool) : Bool :=
  (isFolder || !r.onlyFolders) && Glob.matchesPath r.glob path

def judge (rules : List IgnoreRule) (path : String) (isFolder : Bool) : Option Bool :=
  (rules.reverse.find? fun r => r.applies path isFolder).map fun r => !r.keeps

end IgnoreRule

end MutantSieve
