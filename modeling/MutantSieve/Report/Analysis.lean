import MutantSieve.Analysis
import MutantSieve.Report.Format
import MutantSieve.Report.Table

/-!
# Reports of analyses

An analysis as JSON text, as Markdown and as plain text.
-/

set_option autoImplicit false

namespace MutantSieve

def FilteredMutation.toJson (e : FilteredMutation) : Json :=
  .record [("mutation", e.mutation.toJson), ("filter", .text e.filter)]

def ClassResult.toJson (c : ClassResult) : Json :=
  .record
    ([("class", .text c.class), ("kept_count", .nat c.keptCount),
      ("filtered_count", .nat c.filteredCount), ("filter_rate", .double c.rate)] ++
      (if c.kept.isEmpty then [] else [("kept", .list (c.kept.map Mutation.toJson))]) ++
      [("filtered", .list (c.filtered.map FilteredMutation.toJson))])

def Analysis.toJson (a : Analysis) : Json :=
  .record
    [("classes", .list (a.classes.map ClassResult.toJson)), ("summary", a.summary.toJson)]

namespace Report

/-- A share in percent: the double next to its hundredfold, with two places. -/
def percent (rate : Binary) : String :=
  String.ofList
    (Binary.fixedText 2 (Binary.double.times rate (Binary.double.ofInt 100)) ++ ['%'])

def lineNumber (m : Mutation) : String :=
  match m.line with
  | some n => Text.natural n.toNat
  | none => "-"

def keptRow (m : Mutation) : Row :=
  [m.id.location.display, Text.natural m.id.index.toNat, m.id.mutator.label, lineNumber m]

def filteredRow (e : FilteredMutation) : Row :=
  [e.mutation.id.location.display, Text.natural e.mutation.id.index.toNat,
   e.mutation.id.mutator.label, e.filter, lineNumber e.mutation]

def classRow (c : ClassResult) : Row :=
  [c.class, Text.natural c.keptCount, Text.natural c.filteredCount, percent c.rate]

def filterRow (e : String × Nat) : Row := [e.1, Text.natural e.2]

def mutatorRow (e : String × MutatorCount) : Row :=
  [e.1, Text.natural e.2.total, Text.natural e.2.filtered]

def optionalSection (heading : String) (headers : Row) (rows : List Row) : List Char :=
  if rows.isEmpty then [] else paragraph heading ++ table headers rows

def listed (names : List String) : String := String.intercalate ", " names

def summaryMarkdown (s : Summary) : List Char :=
  paragraph "## Summary" ++
    paragraph ("**Classes**: " ++ Text.natural s.totalClasses) ++
    paragraph ("**Mutations**: " ++ Text.natural s.totalMutations) ++
    paragraph ("**Kept**: " ++ Text.natural s.kept) ++
    paragraph ("**Filtered**: " ++ Text.natural s.filtered ++ " (" ++ percent s.rate ++ ")") ++
    paragraph ("**Features**: " ++ if s.features.isEmpty then "-" else listed s.features) ++
    optionalSection "### By Filter" ["Filter", "Filtered"] (s.byFilter.map filterRow) ++
    optionalSection "### By Mutator" ["Mutator", "Total", "Filtered"] (s.byMutator.map mutatorRow)

def markdown (a : Analysis) : List Char :=
  paragraph "# Mutation Filtering" ++
    tableOr "_No classes analyzed_" ["Class", "Kept", "Filtered", "Rate"]
      (a.classes.map classRow) ++
    paragraph "## Filtered" ++
    tableOr "_No items_" ["Location", "Index", "Mutator", "Filter", "Line"]
      (a.classes.flatMap fun c => c.filtered.map filteredRow) ++
    optionalSection "## Kept" ["Location", "Index", "Mutator", "Line"]
      (a.classes.flatMap fun c => c.kept.map keptRow) ++
    summaryMarkdown a.summary

def mention (m : Mutation) : String :=
  m.id.location.display ++ "@" ++ Text.natural m.id.index.toNat ++ " [" ++ m.id.mutator.label ++ "]"

def classText (c : ClassResult) : List Char :=
  line
      (c.class ++ ": " ++ Text.natural c.keptCount ++ " kept, " ++
        Text.natural c.filteredCount ++ " filtered") ++
    c.filtered.flatMap (fun e =>
      line ("  filtered  " ++ mention e.mutation ++ " by " ++ e.filter)) ++
    c.kept.flatMap fun m => line ("  kept      " ++ mention m)

def filterCounts (t : Tally Nat) : List Char :=
  if t.isEmpty then []
  else
    line "  By Filter:" ++
      t.flatMap fun e => line ("    " ++ e.1 ++ ": " ++ Text.natural e.2)

def summaryText (s : Summary) : List Char :=
  line "Summary:" ++
    line ("  Classes: " ++ Text.natural s.totalClasses) ++
    line ("  Mutations: " ++ Text.natural s.totalMutations) ++
    line ("  Kept: " ++ Text.natural s.kept) ++
    line ("  Filtered: " ++ Text.natural s.filtered ++ " (" ++ percent s.rate ++ ")") ++
    line ("  Features: " ++ listed s.features) ++
    filterCounts s.byFilter ++
    line ("  Duration: " ++ String.ofList (Binary.fixedText 3 s.duration.seconds) ++ "s")

def plain (a : Analysis) : List Char := a.classes.flatMap classText ++ summaryText a.summary

end Report

def Analysis.report (a : Analysis) (f : ReportFormat) : String :=
  match f with
  | .json => String.ofList (a.toJson.pretty 0 ++ ['\n'])
  | .markdown => String.ofList (Report.markdown a)
  | .text => String.ofList (Report.plain a)

end MutantSieve
