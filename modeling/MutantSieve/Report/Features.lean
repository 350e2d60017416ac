import MutantSieve.Feature
import MutantSieve.Json.Value
import MutantSieve.Report.Format
import MutantSieve.Report.Table

/-!
# Reports of features

The features of a registry, with their states, as JSON text, as Markdown and as plain text.
-/

set_option autoImplicit false

namespace MutantSieve

def FeatureStatus.toJson (s : FeatureStatus) : Json :=
  .record
    [("name", .text s.feature.name), ("on_by_default", .bool s.feature.onByDefault),
     ("description", .text s.feature.description), ("factory", .text s.factory),
     ("interceptor_type", .text s.role), ("enabled", .bool s.enabled)]

namespace Report

def onOff (b : Bool) : String := if b then "on" else "off"

def featureRow (s : FeatureStatus) : Row :=
  [s.feature.name, onOff s.enabled, onOff s.feature.onByDefault, s.factory, s.feature.description]

def featureText (s : FeatureStatus) : List Char :=
  line
      (s.feature.name ++ " [" ++ onOff s.enabled ++ "] (default " ++
        onOff s.feature.onByDefault ++ ") " ++ s.factory) ++
    if s.feature.description = "" then [] else line ("  " ++ s.feature.description)

def features (list : List FeatureStatus) (f : ReportFormat) : String :=
  match f with
  | .json => String.ofList ((Json.list (list.map FeatureStatus.toJson)).pretty 0 ++ ['\n'])
  | .markdown =>
    String.ofList
      (paragraph "# Features" ++
        tableOr "_No items_" ["Feature", "Enabled", "Default", "Factory", "Description"]
          (list.map featureRow))
  | .text => String.ofList (list.flatMap featureText)

end Report

end MutantSieve
