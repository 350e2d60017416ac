import MutantSieve.Files.IgnoreLevel

/-!
# Personal ignore rules

A user may keep one file of ignore rules for all repositories. The environment tells where: the
settings of the user may name the file, and else it has its place in a folder for settings. Such
rules see paths from the current folder on, and count after those of the repository.

The settings are not read section by section. The first line that sets `excludesfile`, in any case,
names the file; its value is one word, which may stand between quotation marks.
-/

set_option autoImplicit false

namespace MutantSieve

namespace PersonalRules

def value? (environment : List (String × String)) (name : String) : Option String :=
  (environment.lookup name).filter fun value => !value.isEmpty

def home? (environment : List (String × String)) : Option String := value? environment "HOME"

def settingsFolder? (environment : List (String × String)) : Option String :=
  (value? environment "XDG_CONFIG_HOME").or
    ((home? environment).map fun home => Path.join home ".config")

/-- The files with the settings of the user, of which earlier ones win. A variable may put another
in their place. -/
def settingsFiles (environment : List (String × String)) : List String :=
  match environment.lookup "GIT_CONFIG_GLOBAL" with
  | some path => [path]
  | none =>
    ((home? environment).map fun home => Path.join home ".gitconfig").toList ++
      ((settingsFolder? environment).map fun folder => Path.join folder "git/config").toList

def isGap (b : UInt8) : Bool := decide (b = 32) || (decide (9 ≤ b) && decide (b ≤ 13))

def lineEnd : UInt8 := 10

def mark : UInt8 := 34

def endsLine (s : List UInt8) : Bool :=
  match s.dropWhile fun b => isGap b && decide (b ≠ lineEnd) with
  | [] => true
  | b :: _ => decide (b = lineEnd)

def closesLine (s : List UInt8) : Bool :=
  endsLine s ||
    match s.dropWhile isGap with
    | [] => true
    | b :: r => decide (b = mark) && endsLine r

/-- The word at the start of a text, if it is the last one of its line. A quotation mark at its end
does not belong to it. -/
def lastWord (s : List UInt8) : Option (List UInt8) :=
  let word := s.takeWhile fun b => !isGap b
  let rest := s.dropWhile fun b => !isGap b
  if decide (1 < word.length) && word.getLast? == some mark && endsLine rest then
    some word.dropLast
  else if !word.isEmpty && closesLine rest then some word
  else none

def settingValue (s : List UInt8) : Option (List UInt8) :=
  match s.dropWhile isGap with
  | [] => none
  | b :: r =>
    (if b = mark then lastWord (r.dropWhile isGap) else none).or (lastWord (b :: r))

def key : String := "excludesfile"

def settingAt (s : List UInt8) : Option (List UInt8) :=
  let s := s.dropWhile isGap
  let size := key.utf8ByteSize
  if (s.take size).map (fun b => (Char.ofUInt8 b).toLower) == key.toList then
    match (s.drop size).dropWhile isGap with
    | [] => none
    | b :: r => if b = '='.toUInt8 then settingValue r else none
  else none

/-- The first setting of an ignore file in a text. `fresh` tells whether a line starts here. -/
def firstSetting (fresh : Bool) : List UInt8 → Option (List UInt8)
  | [] => none
  | b :: r =>
    (if fresh then settingAt (b :: r) else none).or (firstSetting (decide (b = lineEnd)) r)

def namedIn (t : FileTree) (path : String) : Option String := do
  let content ← t.content? path
  IgnoreRule.textOf (← firstSetting true content.toList)

def expanded (environment : List (String × String)) (path : String) : Option String :=
  if path.toList.contains '~' then
    (home? environment).map fun home => path.replace "~" home
  else some path

def file? (t : FileTree) (environment : List (String × String)) : Option String :=
  match (settingsFiles environment).findSome? (namedIn t) with
  | some path => expanded environment path
  | none => (settingsFolder? environment).map fun folder => Path.join folder "git/ignore"

def level (t : FileTree) (environment : List (String × String)) : IgnoreLevel :=
  { root := "/" ++ String.intercalate "/" t.here
    above := false
    ignore := []
    git :=
      match file? t environment with
      | some path => IgnoreLevel.rulesAt t path
      | none => []
    exclude := []
    isRepository := false }

end PersonalRules

end MutantSieve
