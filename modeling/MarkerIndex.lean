import MarkerIndex.Command.Basic
import MarkerIndex.Command.Run
import MarkerIndex.CommandLine.Help
import MarkerIndex.CommandLine.Reading
import MarkerIndex.CommandLine.Refusal
import MarkerIndex.CommandLine.Switch
import MarkerIndex.Config.Basic
import MarkerIndex.Config.Lookup
import MarkerIndex.Config.Reading
import MarkerIndex.Config.Validation
import MarkerIndex.Crate.Corpus
import MarkerIndex.Crate.Directive
import MarkerIndex.Crate.Resolution
import MarkerIndex.Crate.Scan
import MarkerIndex.Crate.Symbols
import MarkerIndex.Declaration
import MarkerIndex.Emission
import MarkerIndex.Encoding
import MarkerIndex.Error
import MarkerIndex.Files.Access
import MarkerIndex.Files.Disk
import MarkerIndex.Files.Ignore
import MarkerIndex.Files.Tree
import MarkerIndex.Files.Walk
import MarkerIndex.Grammar.Attribute
import MarkerIndex.Grammar.Expression
import MarkerIndex.Grammar.Failure
import MarkerIndex.Grammar.File
import MarkerIndex.Grammar.Item
import MarkerIndex.Grammar.Pattern
import MarkerIndex.Grammar.Reader
import MarkerIndex.Grammar.Rules
import MarkerIndex.Grammar.Type
import MarkerIndex.ItemPath
import MarkerIndex.Json.Decode
import MarkerIndex.Json.Reader
import MarkerIndex.Json.Value
import MarkerIndex.Main
import MarkerIndex.Pass
import MarkerIndex.Path.Basic
import MarkerIndex.Path.Normal
import MarkerIndex.Path.Pattern
import MarkerIndex.Program
import MarkerIndex.Program.Demand
import MarkerIndex.Project.BuildScript
import MarkerIndex.Project.Discovery
import MarkerIndex.Project.Output
import MarkerIndex.Proofs.Binding
import MarkerIndex.Proofs.Denotation
import MarkerIndex.Proofs.Directive
import MarkerIndex.Proofs.External
import MarkerIndex.Proofs.FilePath
import MarkerIndex.Proofs.GeneratedText
import MarkerIndex.Proofs.GlobImport
import MarkerIndex.Proofs.ItemPath
import MarkerIndex.Proofs.Loading
import MarkerIndex.Proofs.Lookup
import MarkerIndex.Proofs.ModuleTree
import MarkerIndex.Proofs.Pass
import MarkerIndex.Proofs.QualifiedName
import MarkerIndex.Proofs.Quoted
import MarkerIndex.Proofs.Reexport
import MarkerIndex.Proofs.Session
import MarkerIndex.Proofs.SourceTable
import MarkerIndex.Proofs.Spelling
import MarkerIndex.Proofs.Table
import MarkerIndex.Session.Call
import MarkerIndex.Session.Context
import MarkerIndex.Session.CrashReport
import MarkerIndex.Session.Event
import MarkerIndex.Settings
import MarkerIndex.Source.Item
import MarkerIndex.Source.Lexer
import MarkerIndex.Source.Position
import MarkerIndex.Source.Scan
import MarkerIndex.Source.Token
import MarkerIndex.Summary
import MarkerIndex.Terminal.Style
import MarkerIndex.Text.Blank
import MarkerIndex.Text.CodeRange
import MarkerIndex.Text.Identifier
import MarkerIndex.Text.Likeness
import MarkerIndex.Text.Quoted
import MarkerIndex.Text.Visible
import MarkerIndex.Toml.Date
import MarkerIndex.Toml.Decimal
import MarkerIndex.Toml.Digits
import MarkerIndex.Toml.Document
import MarkerIndex.Toml.Double
import MarkerIndex.Toml.Failure
import MarkerIndex.Toml.Number
import MarkerIndex.Toml.Quoted
import MarkerIndex.Toml.Scalar
import MarkerIndex.Toml.Syntax
import MarkerIndex.Toml.Token
import MarkerIndex.Proofs.Scan
import MarkerIndex.Proofs.AddedFile
import MarkerIndex.Proofs.AddedScope
import MarkerIndex.Proofs.Regeneration
import MarkerIndex.Proofs.Reader
import MarkerIndex.Proofs.Words
import MarkerIndex.Proofs.MarkerWords
import MarkerIndex.Proofs.TextTokens
import MarkerIndex.Proofs.GeneratedTokens
import MarkerIndex.Proofs.Parsing
import MarkerIndex.Proofs.GeneratedSource
import MarkerIndex.Proofs.PlainPath
import MarkerIndex.Proofs.ClosedFiles
import MarkerIndex.Proofs.ModuleFiles
import MarkerIndex.Proofs.TakenOut
import MarkerIndex.Proofs.DividedFile
import MarkerIndex.Proofs.Extraction
import MarkerIndex.Proofs.KnownItems
import MarkerIndex.Proofs.JsonText
import MarkerIndex.Proofs.PathText
import MarkerIndex.Proofs.ReadBack
import MarkerIndex.Proofs.Rearranged
import MarkerIndex.Proofs.RearrangedSources
import MarkerIndex.Proofs.Registry
import MarkerIndex.Proofs.Disk
import MarkerIndex.Proofs.Delivery
import MarkerIndex.Proofs.NormalPath
import MarkerIndex.Proofs.NormalPlace
import MarkerIndex.Proofs.Discovery
import MarkerIndex.Proofs.ParallelLoading
import MarkerIndex.Proofs.BelowDirectory
import MarkerIndex.Proofs.DiscoveredSources
import MarkerIndex.Proofs.Watching
import MarkerIndex.Proofs.CanonicalPath
import MarkerIndex.Proofs.ModuleNames
import MarkerIndex.Proofs.NearestConfig
import MarkerIndex.Proofs.FailedRun
import MarkerIndex.Proofs.FileOfModule
import MarkerIndex.Proofs.PathPrefix
import MarkerIndex.Proofs.TrailingComma
import MarkerIndex.Proofs.Departure
import MarkerIndex.Proofs.SoundMarkers
import MarkerIndex.Proofs.RemovedFiles
import MarkerIndex.Proofs.BuildOutput
import MarkerIndex.Proofs.WorkingDirectory
import MarkerIndex.Proofs.Literal
import MarkerIndex.Proofs.Validation
import MarkerIndex.Proofs.Progress
import MarkerIndex.Proofs.NormalFile
import MarkerIndex.Proofs.RootDirectory
import MarkerIndex.Proofs.Blanks
import MarkerIndex.Proofs.PathSigns
import MarkerIndex.Proofs.TextLeaves
import MarkerIndex.Proofs.PathLayout
import MarkerIndex.Proofs.PathKey
import MarkerIndex.Proofs.GuardStack
