import RenderLoop.Check.Dependency
import RenderLoop.Check.Effect
import RenderLoop.Check.File
import RenderLoop.Check.Keys
import RenderLoop.Check.Props
import RenderLoop.Check.Render
import RenderLoop.Check.Report
import RenderLoop.Command.Basic
import RenderLoop.Command.Option
import RenderLoop.Command.Run
import RenderLoop.Command.Template
import RenderLoop.Data.Json
import RenderLoop.Data.Json.Printer
import RenderLoop.Data.Jsonc
import RenderLoop.Data.Moment
import RenderLoop.Data.Search
import RenderLoop.Data.Table
import RenderLoop.Data.Toml
import RenderLoop.Data.Toml.Reader
import RenderLoop.Data.Value
import RenderLoop.Expr.Bare
import RenderLoop.Expr.Binding
import RenderLoop.Expr.Call
import RenderLoop.Expr.Function
import RenderLoop.Expr.Jsx
import RenderLoop.Expr.Literal
import RenderLoop.Files.Basic
import RenderLoop.Files.Document
import RenderLoop.Files.Glob
import RenderLoop.Files.Path
import RenderLoop.Files.Snapshot
import RenderLoop.Finding.Basic
import RenderLoop.Finding.Code
import RenderLoop.Finding.Level
import RenderLoop.Finding.Rules
import RenderLoop.Finding.Suppression
import RenderLoop.Guard.Basic
import RenderLoop.Guard.Condition
import RenderLoop.Guard.Enclosing
import RenderLoop.Main
import RenderLoop.Number.Decimal
import RenderLoop.Number.Double
import RenderLoop.Number.Input
import RenderLoop.Options.Basic
import RenderLoop.Options.Context
import RenderLoop.Project.Analysis
import RenderLoop.Project.Closure
import RenderLoop.Project.Detection
import RenderLoop.Project.Discovery
import RenderLoop.Project.Exports
import RenderLoop.Project.HandOff
import RenderLoop.Project.ImportGraph
import RenderLoop.Project.Resolver
import RenderLoop.Proofs.Names
import RenderLoop.Proofs.Outcome
import RenderLoop.Proofs.Search
import RenderLoop.Report.Basic
import RenderLoop.Report.Human
import RenderLoop.Report.Layout
import RenderLoop.Schedule
import RenderLoop.Settings.Basic
import RenderLoop.Settings.Load
import RenderLoop.Settings.Options
import RenderLoop.Settings.Preset
import RenderLoop.Settings.Validation
import RenderLoop.Source.File
import RenderLoop.Source.Hook
import RenderLoop.Source.Import
import RenderLoop.Stability.Component
import RenderLoop.Stability.Declaration
import RenderLoop.Stability.Facts
import RenderLoop.Stability.Verdict
import RenderLoop.Text.Chars
import RenderLoop.Text.Chars.Tables
import RenderLoop.Text.Lines
import RenderLoop.Text.Lossy
import RenderLoop.Text.Pattern
import RenderLoop.Text.Quoted
import RenderLoop.Text.Regex.Basic
import RenderLoop.Text.Regex.Parser
import RenderLoop.Text.Width
import RenderLoop.Text.Width.Tables
import RenderLoop.Text.Wildcard
import RenderLoop.Tree.Basic
import RenderLoop.Tree.Kind
import RenderLoop.Tree.Rows
import RenderLoop.Tree.Walk
import RenderLoop.Update.Derivation
import RenderLoop.Update.Helper
import RenderLoop.Update.Interaction
import RenderLoop.Update.Scan
import RenderLoop.Proofs.Cycles
import RenderLoop.Proofs.Descent
import RenderLoop.Proofs.Scan
import RenderLoop.Proofs.Events
import RenderLoop.Proofs.EffectVerdict
import RenderLoop.Proofs.Sketch
import RenderLoop.Proofs.Depths
import RenderLoop.Proofs.Runs
import RenderLoop.Proofs.Cleanup
import RenderLoop.Proofs.Links
import RenderLoop.Proofs.Reach
import RenderLoop.Proofs.Resolution
import RenderLoop.Proofs.Completion
import RenderLoop.Proofs.HandedSetters
import RenderLoop.Proofs.InputOrder
import RenderLoop.Proofs.Served
import RenderLoop.Proofs.Anchors
import RenderLoop.Proofs.FindingOrder
import RenderLoop.Proofs.Isolation
import RenderLoop.Proofs.Markers
import RenderLoop.Proofs.TextRows
import RenderLoop.Proofs.LineNumbers
import RenderLoop.Proofs.Confidence
import RenderLoop.Proofs.Propagation
import RenderLoop.Proofs.CallGraph
import RenderLoop.Proofs.HelperReach
import RenderLoop.Proofs.GuardShapes
import RenderLoop.Proofs.GuardLevels
import RenderLoop.Proofs.EffectGuards
import RenderLoop.Proofs.SameCode
import RenderLoop.Proofs.RenderGuards
import RenderLoop.Proofs.Unconditional
import RenderLoop.Proofs.Awaits
import RenderLoop.Proofs.Routes
import RenderLoop.Proofs.ImportClosure
import RenderLoop.Proofs.SettingsOrder
import RenderLoop.Proofs.Renewals
import RenderLoop.Proofs.ListedNames
import RenderLoop.Proofs.SearchOrder
import RenderLoop.Proofs.ExportPaths
import RenderLoop.Proofs.MemoUpdates
import RenderLoop.Proofs.FunctionBodies
import RenderLoop.Proofs.RenderUpdates
import RenderLoop.Proofs.Readings
import RenderLoop.Proofs.WrappedCallbacks
import RenderLoop.Proofs.AliasChoice
import RenderLoop.Proofs.StrictJson
import RenderLoop.Proofs.KeyParts
import RenderLoop.Proofs.StateDerivation
import RenderLoop.Proofs.InnermostComponent
import RenderLoop.Proofs.OptionFailures
import RenderLoop.Proofs.Filtering
import RenderLoop.Proofs.ConfigChain
import RenderLoop.Proofs.ScanCoverage
import RenderLoop.Proofs.OneLine
import RenderLoop.Proofs.Words
import RenderLoop.Proofs.Explanations
import RenderLoop.Proofs.CompactLines
import RenderLoop.Proofs.Comments
import RenderLoop.Proofs.Patterns
