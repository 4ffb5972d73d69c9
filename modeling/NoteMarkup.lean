import NoteMarkup.Assets
import NoteMarkup.BlockMarker
import NoteMarkup.Calendar
import NoteMarkup.Callout
import NoteMarkup.CommandLine.Arguments
import NoteMarkup.CommandLine.Command
import NoteMarkup.CommandLine.Override
import NoteMarkup.Configuration
import NoteMarkup.Context
import NoteMarkup.Decimal.Shortest
import NoteMarkup.Decimal.Text
import NoteMarkup.Error
import NoteMarkup.Fault
import NoteMarkup.FileTree
import NoteMarkup.FrontMatter
import NoteMarkup.Highlight
import NoteMarkup.Host
import NoteMarkup.Html.Attributes
import NoteMarkup.Html.Entities
import NoteMarkup.Html.Escape
import NoteMarkup.Html.Render
import NoteMarkup.Html.Unescape
import NoteMarkup.ImageLabel
import NoteMarkup.Json.Printer
import NoteMarkup.Json.Quoted
import NoteMarkup.Json.Reader
import NoteMarkup.LoadFault
import NoteMarkup.Log
import NoteMarkup.LogSetup
import NoteMarkup.LogSetup.Delivery
import NoteMarkup.Main
import NoteMarkup.Markdown.Block.Basic
import NoteMarkup.Markdown.Block.Leaf
import NoteMarkup.Markdown.Block.Line
import NoteMarkup.Markdown.Block.Reader
import NoteMarkup.Markdown.Destination
import NoteMarkup.Markdown.Indent
import NoteMarkup.Markdown.Inline.Basic
import NoteMarkup.Markdown.Inline.Delimiter
import NoteMarkup.Markdown.Inline.Emphasis
import NoteMarkup.Markdown.Inline.Reader
import NoteMarkup.Markdown.Markup
import NoteMarkup.Markdown.Punctuation
import NoteMarkup.Markdown.Token
import NoteMarkup.MediaUrl
import NoteMarkup.Moment
import NoteMarkup.Node.Attributes
import NoteMarkup.Node.Basic
import NoteMarkup.Node.Children
import NoteMarkup.Node.OfToken
import NoteMarkup.Node.Transform
import NoteMarkup.Node.Walk
import NoteMarkup.Note
import NoteMarkup.Options
import NoteMarkup.Path
import NoteMarkup.Pipeline
import NoteMarkup.Proofs.AnchorText
import NoteMarkup.Proofs.AttributeReading
import NoteMarkup.Proofs.Attributes
import NoteMarkup.Proofs.BlockIds
import NoteMarkup.Proofs.BlockNaming
import NoteMarkup.Proofs.BlockRecord
import NoteMarkup.Proofs.BlockTargets
import NoteMarkup.Proofs.BlockTrace
import NoteMarkup.Proofs.CalloutBlocks
import NoteMarkup.Proofs.CalloutKinds
import NoteMarkup.Proofs.CalloutLines
import NoteMarkup.Proofs.CalloutReading
import NoteMarkup.Proofs.CalloutRerun
import NoteMarkup.Proofs.CalloutSpelling
import NoteMarkup.Proofs.CalloutSyntax
import NoteMarkup.Proofs.ChildReplacement
import NoteMarkup.Proofs.CommandEnd
import NoteMarkup.Proofs.ConfigurationFaults
import NoteMarkup.Proofs.DiagramSource
import NoteMarkup.Proofs.DialectFree
import NoteMarkup.Proofs.DirectiveTitles
import NoteMarkup.Proofs.DiscoveryOrder
import NoteMarkup.Proofs.Edited
import NoteMarkup.Proofs.Escaping
import NoteMarkup.Proofs.FirstSeen
import NoteMarkup.Proofs.FlagSettings
import NoteMarkup.Proofs.FoundReferences
import NoteMarkup.Proofs.Fragment
import NoteMarkup.Proofs.FreshIds
import NoteMarkup.Proofs.FrontMatter
import NoteMarkup.Proofs.FrontMatterParts
import NoteMarkup.Proofs.FrozenTitles
import NoteMarkup.Proofs.GeneratedMarkup
import NoteMarkup.Proofs.ImageLabels
import NoteMarkup.Proofs.JsonFaults
import NoteMarkup.Proofs.JsonQuoting
import NoteMarkup.Proofs.KeptMarkup
import NoteMarkup.Proofs.LateStages
import NoteMarkup.Proofs.LeafStages
import NoteMarkup.Proofs.Ledger
import NoteMarkup.Proofs.Lines
import NoteMarkup.Proofs.LinkAddress
import NoteMarkup.Proofs.LogBlind
import NoteMarkup.Proofs.LogHistory
import NoteMarkup.Proofs.LoneMarkers
import NoteMarkup.Proofs.LowerCase
import NoteMarkup.Proofs.MarkSyntax
import NoteMarkup.Proofs.Markup
import NoteMarkup.Proofs.MediaMarkers
import NoteMarkup.Proofs.MediaStages
import NoteMarkup.Proofs.MediaVisits
import NoteMarkup.Proofs.MissedMarkup
import NoteMarkup.Proofs.NoteLinks
import NoteMarkup.Proofs.OwnConstructs
import NoteMarkup.Proofs.PassInterference
import NoteMarkup.Proofs.PathExtension
import NoteMarkup.Proofs.PathSlugs
import NoteMarkup.Proofs.PatternMatches
import NoteMarkup.Proofs.PipelineRun
import NoteMarkup.Proofs.PlainText
import NoteMarkup.Proofs.PlayerLinks
import NoteMarkup.Proofs.Processing
import NoteMarkup.Proofs.RawPasses
import NoteMarkup.Proofs.ReadMarkup
import NoteMarkup.Proofs.Record
import NoteMarkup.Proofs.ReferencePrinting
import NoteMarkup.Proofs.ReferenceReading
import NoteMarkup.Proofs.ReferenceSyntax
import NoteMarkup.Proofs.RegisteredStages
import NoteMarkup.Proofs.RemovedMarkers
import NoteMarkup.Proofs.RenderedText
import NoteMarkup.Proofs.RendererCalls
import NoteMarkup.Proofs.Rendering
import NoteMarkup.Proofs.Retouch
import NoteMarkup.Proofs.Run
import NoteMarkup.Proofs.ShownLeaves
import NoteMarkup.Proofs.ShownMedia
import NoteMarkup.Proofs.SlugFile
import NoteMarkup.Proofs.SlugText
import NoteMarkup.Proofs.Soundness
import NoteMarkup.Proofs.StageOrder
import NoteMarkup.Proofs.TagAddress
import NoteMarkup.Proofs.TagMerge
import NoteMarkup.Proofs.TagOrder
import NoteMarkup.Proofs.TagResolution
import NoteMarkup.Proofs.TagSlugs
import NoteMarkup.Proofs.TextRuns
import NoteMarkup.Proofs.Tree
import NoteMarkup.Proofs.TwoPaths
import NoteMarkup.Proofs.Utf8
import NoteMarkup.Proofs.VideoReferences
import NoteMarkup.Proofs.Visits
import NoteMarkup.Proofs.WellFormed
import NoteMarkup.Reference
import NoteMarkup.Registry
import NoteMarkup.Registry.Request
import NoteMarkup.Slug
import NoteMarkup.Stage.Basic
import NoteMarkup.Stage.Blocks
import NoteMarkup.Stage.Callouts
import NoteMarkup.Stage.Catalog
import NoteMarkup.Stage.Declaration
import NoteMarkup.Stage.Highlights
import NoteMarkup.Stage.Links
import NoteMarkup.Stage.Media
import NoteMarkup.Stage.RawMarkup
import NoteMarkup.Stage.Simple
import NoteMarkup.Stage.Tags
import NoteMarkup.TagText
import NoteMarkup.Task
import NoteMarkup.Text.Base64
import NoteMarkup.Text.Blank
import NoteMarkup.Text.Case
import NoteMarkup.Text.Digit
import NoteMarkup.Text.Hex
import NoteMarkup.Text.Lines
import NoteMarkup.Text.Number
import NoteMarkup.Text.Pattern
import NoteMarkup.Text.Percent
import NoteMarkup.Text.Printable
import NoteMarkup.Text.Ranges
import NoteMarkup.Text.Surrogate
import NoteMarkup.Text.Utf8
import NoteMarkup.Text.Word
import NoteMarkup.Toml.Reader
import NoteMarkup.Toml.Scalar
import NoteMarkup.Toml.Syntax
import NoteMarkup.Toml.Table
import NoteMarkup.Value
import NoteMarkup.Yaml.Cursor
import NoteMarkup.Yaml.Draft
import NoteMarkup.Yaml.Implicit
import NoteMarkup.Yaml.Node
import NoteMarkup.Yaml.Scalar
import NoteMarkup.Yaml.ScalarValue
import NoteMarkup.Yaml.Scanner
import NoteMarkup.Yaml.Token
