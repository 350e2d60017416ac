import MutantSieve.Analysis
import MutantSieve.Binary.Basic
import MutantSieve.Binary.Shortest
import MutantSieve.Binary.Text
import MutantSieve.ClassTree
import MutantSieve.CommandLine.Invocation
import MutantSieve.CommandLine.Program
import MutantSieve.CommandLine.Scan
import MutantSieve.CommandLine.Switch
import MutantSieve.Config.Basic
import MutantSieve.Config.Environment
import MutantSieve.Config.Load
import MutantSieve.Data
import MutantSieve.Decode.Basic
import MutantSieve.Decode.Class
import MutantSieve.Decode.Mutation
import MutantSieve.Descriptor
import MutantSieve.Elapsed
import MutantSieve.Error
import MutantSieve.Feature
import MutantSieve.Files.IgnoreLevel
import MutantSieve.Files.IgnoreRules
import MutantSieve.Files.InputSet
import MutantSieve.Files.Path
import MutantSieve.Files.PersonalRules
import MutantSieve.Files.Tree
import MutantSieve.Files.Walk
import MutantSieve.Glob.Match
import MutantSieve.Glob.Pattern
import MutantSieve.Instruction
import MutantSieve.Interceptor
import MutantSieve.Json.Encode
import MutantSieve.Json.Numeral
import MutantSieve.Json.Reader
import MutantSieve.Json.Value
import MutantSieve.Location
import MutantSieve.Main
import MutantSieve.Mutation
import MutantSieve.Mutator
import MutantSieve.Opcode
import MutantSieve.Pattern
import MutantSieve.Proofs.Batch
import MutantSieve.Proofs.ClassTree
import MutantSieve.Report.Analysis
import MutantSieve.Report.Features
import MutantSieve.Report.Format
import MutantSieve.Report.Table
import MutantSieve.Summary
import MutantSieve.Text.Blank
import MutantSieve.Text.Digits
import MutantSieve.Text.Letters
import MutantSieve.Text.Printable
import MutantSieve.Text.Quoted
import MutantSieve.Toml.Reader
import MutantSieve.Toml.Scalar
import MutantSieve.Toml.Table
import MutantSieve.Toml.Text
import MutantSieve.UnitFile
import MutantSieve.Window
import MutantSieve.Word
import MutantSieve.Proofs.Verdict
import MutantSieve.Proofs.ReturnedValue
import MutantSieve.Proofs.Equivalence
import MutantSieve.Proofs.Feature
import MutantSieve.Proofs.Summary
import MutantSieve.Proofs.Analysis
import MutantSieve.Proofs.Descriptor
import MutantSieve.Proofs.GroupOrder
import MutantSieve.Proofs.ClassBuilding
import MutantSieve.Proofs.Json.Text
import MutantSieve.Proofs.Json.Numeral
import MutantSieve.Proofs.Json.Script
import MutantSieve.Proofs.Json.Grammar
import MutantSieve.Proofs.Json.Document
import MutantSieve.Proofs.Decode
import MutantSieve.Proofs.ClassText
import MutantSieve.Proofs.SettingOrder
import MutantSieve.Proofs.Events
import MutantSieve.Proofs.Blank
import MutantSieve.Proofs.Mutator
import MutantSieve.Proofs.MutationText
import MutantSieve.Proofs.InputSet
import MutantSieve.Proofs.Loading
import MutantSieve.Proofs.Nesting
import MutantSieve.Proofs.Families
import MutantSieve.Proofs.Accounting
import MutantSieve.Proofs.Program
import MutantSieve.Proofs.Toggles
import MutantSieve.Proofs.FileTree
import MutantSieve.Proofs.Outcome
import MutantSieve.Proofs.Success
import MutantSieve.Proofs.Spelling
import MutantSieve.Proofs.DescriptorCuts
import MutantSieve.Proofs.Locality
import MutantSieve.Proofs.Widening
import MutantSieve.Proofs.UnitFile
import MutantSieve.Proofs.LoadOrder
import MutantSieve.Proofs.PrintedId
import MutantSieve.Proofs.SettingText
import MutantSieve.Proofs.Rounding
import MutantSieve.Proofs.UnitShapes
import MutantSieve.Proofs.Duration
import MutantSieve.Proofs.Decimal
import MutantSieve.Proofs.MutationOrder
import MutantSieve.Proofs.Midpoints
import MutantSieve.Proofs.Reading
import MutantSieve.Proofs.Json.Decimal
import MutantSieve.Proofs.SingleText
import MutantSieve.Proofs.Json.Writing
import MutantSieve.Proofs.FloatConstants
import MutantSieve.Proofs.FloatText
import MutantSieve.Proofs.Markdown
import MutantSieve.Proofs.ProjectConfig
import MutantSieve.Proofs.ReportTables
