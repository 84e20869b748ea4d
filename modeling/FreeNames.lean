import FreeNames.Text
import FreeNames.Name
import FreeNames.NameSet
import FreeNames.Tree.Value
import FreeNames.Tree.Kind
import FreeNames.Tree.Text
import FreeNames.Tree.Node
import FreeNames.Tree.Labelled
import FreeNames.Tree.Edit
import FreeNames.Number.Double
import FreeNames.Number.Shortest
import FreeNames.Text.Ranges
import FreeNames.Text.UnprintedRanges
import FreeNames.Text.Quoted
import FreeNames.Text.IdentifierRanges
import FreeNames.Text.Character
import FreeNames.Text.DigitRanges
import FreeNames.Fault
import FreeNames.Log
import FreeNames.Walk
import FreeNames.Scope.Tables
import FreeNames.Scope.Listing
import FreeNames.Scope.Pattern
import FreeNames.Scope.Build
import FreeNames.Reference
import FreeNames.Group
import FreeNames.Grammar.Complaint
import FreeNames.Grammar.Token
import FreeNames.Grammar.RegExp.Symbol
import FreeNames.Grammar.RegExp.Draft
import FreeNames.Grammar.RegExp
import FreeNames.Grammar.Scanner
import FreeNames.Options
import FreeNames.Grammar.Parser
import FreeNames.Grammar.Cover
import FreeNames.Grammar.Binding
import FreeNames.Grammar.Function
import FreeNames.Grammar.Class
import FreeNames.Grammar.Expression
import FreeNames.Grammar.Declaration
import FreeNames.Grammar.Statement
import FreeNames.Grammar.Program
import FreeNames.Outcome
import FreeNames.Analysis
import FreeNames.Report.Json
import FreeNames.Report
import FreeNames.Session
import FreeNames.CommandLine.Switch
import FreeNames.CommandLine.Invocation
import FreeNames.CommandLine.Files
import FreeNames.CommandLine.Scan
import FreeNames.Main
import FreeNames.Proofs.Walk
import FreeNames.Proofs.Labels
import FreeNames.Proofs.Building
import FreeNames.Proofs.Pattern
import FreeNames.Proofs.Declaration
import FreeNames.Proofs.BindingTables
import FreeNames.Proofs.FreeReferences
import FreeNames.Proofs.BindingSites
import FreeNames.Proofs.LeftoverTables
import FreeNames.Proofs.Traversal
import FreeNames.Proofs.Repetition
import FreeNames.Proofs.BindingGrammar
import FreeNames.Proofs.Success
import FreeNames.Proofs.Acceptance
import FreeNames.Proofs.Scoped
import FreeNames.Proofs.Frame
import FreeNames.Proofs.Wrapping
import FreeNames.Proofs.Concatenation
import FreeNames.Proofs.Renaming
import FreeNames.Proofs.Correspondence
import FreeNames.Proofs.CorrespondingAnalyses
import FreeNames.Proofs.Equivariance
import FreeNames.Proofs.UnreadPlaces
import FreeNames.Proofs.Replacement
import FreeNames.Proofs.Encapsulation
import FreeNames.Proofs.SecondReading
import FreeNames.Proofs.ScanResults
import FreeNames.Proofs.BuilderReuse
import FreeNames.Proofs.Rearrangement
import FreeNames.Proofs.StatementOrder
import FreeNames.Proofs.UnreadableInput
import FreeNames.Proofs.PatternSpots
import FreeNames.Proofs.FailedBuild
import FreeNames.Proofs.Shadowing
import FreeNames.Proofs.StableGroups
import FreeNames.Proofs.SourceOrder
import FreeNames.Proofs.ReportedSites
import FreeNames.Proofs.TextReport
import FreeNames.Proofs.TextFormat
import FreeNames.Proofs.JsonText
import FreeNames.Proofs.JsonWriting
import FreeNames.Proofs.JsonReport
