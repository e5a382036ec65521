import Tracemark.Analysis.Entry
import Tracemark.Analysis.Extraction
import Tracemark.Analysis.Run
import Tracemark.Analysis.Settings
import Tracemark.Block
import Tracemark.Build.Basic
import Tracemark.Build.Directive
import Tracemark.Build.Link
import Tracemark.Build.Page
import Tracemark.Build.Setup
import Tracemark.Commands.Analyse
import Tracemark.Commands.Discover
import Tracemark.Commands.Export
import Tracemark.Commands.Line
import Tracemark.Commands.Outcome
import Tracemark.Console.Color
import Tracemark.Console.Markup
import Tracemark.Console.Plain
import Tracemark.Console.Print
import Tracemark.Console.Style
import Tracemark.Console.Width
import Tracemark.Discovery.Basic
import Tracemark.Discovery.Content
import Tracemark.Discovery.Settings
import Tracemark.Export.NeedExtend
import Tracemark.Export.StoredEntry
import Tracemark.Fault
import Tracemark.Git.Ini
import Tracemark.Git.Remote
import Tracemark.Git.Repository
import Tracemark.Git.WebLink
import Tracemark.Json.Reader
import Tracemark.Json.Writer
import Tracemark.Language
import Tracemark.Log.Call
import Tracemark.Log.Record
import Tracemark.Log.Router
import Tracemark.Main
import Tracemark.Measure.Basic
import Tracemark.Measure.Report
import Tracemark.Number.Binary64
import Tracemark.OneLine.Check
import Tracemark.OneLine.Reading
import Tracemark.OneLine.Split
import Tracemark.OneLine.Style
import Tracemark.Path
import Tracemark.Proofs.Analysis.Links
import Tracemark.Proofs.Analysis.Sources
import Tracemark.Proofs.Export.Acceptance
import Tracemark.Proofs.OneLine.Layout
import Tracemark.Proofs.OneLine.Reading
import Tracemark.Proofs.OneLine.RoundTrip
import Tracemark.Proofs.OneLine.Written
import Tracemark.Proofs.Report
import Tracemark.Proofs.Result
import Tracemark.Proofs.Schema
import Tracemark.Proofs.Text.Blank
import Tracemark.Proofs.Text.Search
import Tracemark.Proofs.Text.Utf8
import Tracemark.Proofs.Value
import Tracemark.Reference
import Tracemark.Report
import Tracemark.Schema.Basic
import Tracemark.Schema.Best
import Tracemark.Session
import Tracemark.Snapshot
import Tracemark.Store
import Tracemark.Syntax.Comment
import Tracemark.Syntax.Scope
import Tracemark.Syntax.Tree
import Tracemark.Text.Blank
import Tracemark.Text.Case
import Tracemark.Text.Digit
import Tracemark.Text.Lines
import Tracemark.Text.Pattern
import Tracemark.Text.Printable
import Tracemark.Text.Quoted
import Tracemark.Text.Search
import Tracemark.Text.Template
import Tracemark.Text.Utf8
import Tracemark.Tracing.Analyses
import Tracemark.Tracing.Projects
import Tracemark.Tracing.Settings
import Tracemark.Trail
import Tracemark.Url.Percent
import Tracemark.Value.Basic
import Tracemark.Value.Filled
import Tracemark.Value.Items
import Tracemark.Value.Key
import Tracemark.Value.Reached
import Tracemark.Value.Written
import Tracemark.Proofs.Path
import Tracemark.Proofs.StableSort
import Tracemark.Proofs.Analysis.Completion
import Tracemark.Proofs.Analysis.Merging
import Tracemark.Proofs.Analysis.Separation
import Tracemark.Proofs.Analysis.BlockRows
import Tracemark.Proofs.Git.WebLink
import Tracemark.Proofs.Analysis.Places
import Tracemark.Proofs.OneLine.Mark
import Tracemark.Proofs.OneLine.Unbroken
import Tracemark.Proofs.Analysis.FieldBreaks
import Tracemark.Proofs.Analysis.LineLocality
import Tracemark.Proofs.OneLine.Brackets
import Tracemark.Proofs.Store
import Tracemark.Proofs.Build.SourceFile
import Tracemark.Proofs.Build.Traced
import Tracemark.Proofs.Build.Progress
import Tracemark.Proofs.Build.Pages
import Tracemark.Proofs.Commands.Selection
import Tracemark.Proofs.Keys
import Tracemark.Proofs.Build.Requests
import Tracemark.Proofs.Build.RemoteLinks
import Tracemark.Proofs.Build.Configuration
import Tracemark.Proofs.Analysis.Keys
import Tracemark.Proofs.Tracing.Acceptance
import Tracemark.Proofs.Build.MissedKeys
import Tracemark.Proofs.Json.RoundTrip
import Tracemark.Proofs.Tracing.Warnings
import Tracemark.Proofs.Discovery.SourceFiles
import Tracemark.Proofs.Analysis.Rows
import Tracemark.Proofs.Build.BackLinks
import Tracemark.Proofs.OneLine.Acceptance
import Tracemark.Proofs.Schema.Relevance
import Tracemark.Proofs.OneLine.Reports
import Tracemark.Proofs.Tracing.Reports
import Tracemark.Proofs.Build.Warnings
import Tracemark.Proofs.Syntax.Association
import Tracemark.Proofs.OneLine.Columns
import Tracemark.Proofs.Export.Grouping
import Tracemark.Proofs.Syntax.Neighbours
import Tracemark.Proofs.Text.Words
import Tracemark.Proofs.Reference
import Tracemark.Proofs.Analysis.CommentForms
import Tracemark.Proofs.Text.Joined
import Tracemark.Proofs.Block
import Tracemark.Proofs.Block.Extent
import Tracemark.Proofs.Analysis.BlockTexts
import Tracemark.Proofs.Git.Repository
import Tracemark.Proofs.Text.Pattern
import Tracemark.Proofs.Git.ShellAddress
import Tracemark.Proofs.Git.GitlabLinks
import Tracemark.Proofs.Git.StoredAddress
import Tracemark.Proofs.Analysis.MarkerClashes
import Tracemark.Proofs.Build.RelativePaths
import Tracemark.Proofs.Build.LocalLinks
import Tracemark.Proofs.Tracing.Regeneration
import Tracemark.Proofs.OneLine.Separators
import Tracemark.Proofs.Discovery.LeadingComments
import Tracemark.Proofs.Text.Newlines
