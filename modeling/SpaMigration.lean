import SpaMigration.ApiRoute
import SpaMigration.Archive.Basic
import SpaMigration.Archive.Checksum
import SpaMigration.Archive.Inflate
import SpaMigration.Archive.Zip
import SpaMigration.Cli.Arguments
import SpaMigration.Cli.Outcome
import SpaMigration.Cli.Run
import SpaMigration.Component.Basic
import SpaMigration.Component.DefaultImport
import SpaMigration.Component.LazyCall
import SpaMigration.Component.Replace
import SpaMigration.Component.Summary
import SpaMigration.Component.Tag
import SpaMigration.Component.TagTable
import SpaMigration.Component.Usage
import SpaMigration.Conversion
import SpaMigration.Dependency.Change
import SpaMigration.Dependency.Manifest
import SpaMigration.Dependency.Survey
import SpaMigration.Deployment
import SpaMigration.Diagnostic
import SpaMigration.Disk.Basic
import SpaMigration.Disk.Path
import SpaMigration.Edit
import SpaMigration.GeneratedFile
import SpaMigration.ImportBlock
import SpaMigration.Json.Basic
import SpaMigration.Json.Parser
import SpaMigration.Json.Printer
import SpaMigration.Loading
import SpaMigration.Main
import SpaMigration.Migration.Replace
import SpaMigration.Migration.Result
import SpaMigration.Migration.Run
import SpaMigration.Migration.Transform
import SpaMigration.Number.Binary64
import SpaMigration.Number.Share
import SpaMigration.Number.Shortest
import SpaMigration.Options
import SpaMigration.Output
import SpaMigration.Pattern.Basic
import SpaMigration.Pattern.Match
import SpaMigration.Pattern.Parser
import SpaMigration.Pattern.Template
import SpaMigration.Project
import SpaMigration.ProjectAnalysis
import SpaMigration.ProjectPath
import SpaMigration.Proofs.ArchiveConfinement
import SpaMigration.Proofs.ArchivedDirectories
import SpaMigration.Proofs.BatchOrder
import SpaMigration.Proofs.BracketPaths
import SpaMigration.Proofs.ChangedAttributes
import SpaMigration.Proofs.CommentLines
import SpaMigration.Proofs.ComponentTurns
import SpaMigration.Proofs.DanglingUses
import SpaMigration.Proofs.DiskPaths
import SpaMigration.Proofs.DiskWrites
import SpaMigration.Proofs.EditSweep
import SpaMigration.Proofs.ExpressionsInLockstep
import SpaMigration.Proofs.FaultIsolation
import SpaMigration.Proofs.FirstCandidate
import SpaMigration.Proofs.GuardPrefixes
import SpaMigration.Proofs.ImportItems
import SpaMigration.Proofs.ImportLine
import SpaMigration.Proofs.InsertedBlock
import SpaMigration.Proofs.InsertedImports
import SpaMigration.Proofs.InsertionPlace
import SpaMigration.Proofs.ItemKinds
import SpaMigration.Proofs.ItemReading
import SpaMigration.Proofs.ItemRuns
import SpaMigration.Proofs.ItemsAbreast
import SpaMigration.Proofs.LayoutNames
import SpaMigration.Proofs.LineTokens
import SpaMigration.Proofs.Lockstep
import SpaMigration.Proofs.ManifestFrame
import SpaMigration.Proofs.ManifestSections
import SpaMigration.Proofs.MarkupInLockstep
import SpaMigration.Proofs.MentionedImports
import SpaMigration.Proofs.MigratedMarkup
import SpaMigration.Proofs.ModuleMentions
import SpaMigration.Proofs.NearestLayout
import SpaMigration.Proofs.NodeAddresses
import SpaMigration.Proofs.OutputContents
import SpaMigration.Proofs.OutputPlan
import SpaMigration.Proofs.PageNames
import SpaMigration.Proofs.ParsedNodes
import SpaMigration.Proofs.PatternMatches
import SpaMigration.Proofs.PatternOverlap
import SpaMigration.Proofs.PatternPreference
import SpaMigration.Proofs.PatternRewrites
import SpaMigration.Proofs.PatternWords
import SpaMigration.Proofs.Progress
import SpaMigration.Proofs.ReplacedFiles
import SpaMigration.Proofs.ReplacementFrame
import SpaMigration.Proofs.RouteCoverage
import SpaMigration.Proofs.RouteFields
import SpaMigration.Proofs.RouteFiles
import SpaMigration.Proofs.RouterCalls
import SpaMigration.Proofs.RuleFigures
import SpaMigration.Proofs.RulePatches
import SpaMigration.Proofs.RunFiles
import SpaMigration.Proofs.RunStages
import SpaMigration.Proofs.SecondPass
import SpaMigration.Proofs.SettledManifest
import SpaMigration.Proofs.SideBySide
import SpaMigration.Proofs.SingleEdits
import SpaMigration.Proofs.SourceReads
import SpaMigration.Proofs.StageFailures
import SpaMigration.Proofs.StatementsInLockstep
import SpaMigration.Proofs.StrippedComments
import SpaMigration.Proofs.TextCuts
import SpaMigration.Proofs.TokensAbreast
import SpaMigration.Proofs.TypesInLockstep
import SpaMigration.Proofs.UnrelatedFiles
import SpaMigration.Proofs.UnusedComponents
import SpaMigration.Proofs.WordCasing
import SpaMigration.Proofs.WrappedArchives
import SpaMigration.Report
import SpaMigration.Route.Basic
import SpaMigration.Route.RouterModule
import SpaMigration.Route.Target
import SpaMigration.RouteGuard
import SpaMigration.Rule.Basic
import SpaMigration.Rule.Builtin
import SpaMigration.Source
import SpaMigration.Syntax.Dialect
import SpaMigration.Syntax.Grammar.Basic
import SpaMigration.Syntax.Grammar.Declaration
import SpaMigration.Syntax.Grammar.Expression
import SpaMigration.Syntax.Grammar.Function
import SpaMigration.Syntax.Grammar.Literal
import SpaMigration.Syntax.Grammar.Markup
import SpaMigration.Syntax.Grammar.Module
import SpaMigration.Syntax.Grammar.Pattern
import SpaMigration.Syntax.Grammar.Statement
import SpaMigration.Syntax.Grammar.Type
import SpaMigration.Syntax.Parse
import SpaMigration.Syntax.Token
import SpaMigration.Syntax.TokenReader
import SpaMigration.Syntax.Tree
import SpaMigration.Text.Basic
import SpaMigration.Text.Blank
import SpaMigration.Text.CaseFolding
import SpaMigration.Text.Digit
import SpaMigration.Text.Identifier
import SpaMigration.Text.Table
import SpaMigration.Text.Uppercase
import SpaMigration.Text.Word
import SpaMigration.Proofs.ImportRemoval
