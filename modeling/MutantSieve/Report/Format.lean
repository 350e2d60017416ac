import MutantSieve.Text.Letters

/-!
# Report formats
-/

set_option autoImplicit false

namespace MutantSieve

inductive ReportFormat where
  | json
  | markdown
  | text
  deriving DecidableEq, Repr, Inhabited

namespace ReportFormat

def all : List ReportFormat := [json, markdown, text]

def name : ReportFormat → String
  | json => "json"
  | markdown => "markdown"
  | text => "text"

def ofName? (s : String) : Option ReportFormat := all.find? fun f => decide (f.name = s)

/-- The format that a text in any case names; `md` is short for `markdown`. -/
def parse (s : String) : Except String ReportFormat :=
  let name := Text.lowerLetters s
  if name = "text" ∨ name = "txt" then .ok text
  else if name = "json" then .ok json
  else if name = "markdown" ∨ name = "md" then .ok markdown
  else
    .error
      ("Unknown format: " ++ s ++ ". Use \x27text\x27, \x27json\x27, or \x27md\x27")

end ReportFormat

end MutantSieve
