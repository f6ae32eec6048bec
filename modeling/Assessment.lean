import Assessment.Text.Scan
import Assessment.Text.Blank
import Assessment.Text.Word
import Assessment.Text.Digit
import Assessment.Text.Lower
import Assessment.Text.Quoted
import Assessment.Number.Layout
import Assessment.Markup.Escape
import Assessment.Markup.Entity
import Assessment.Markup.StartTag
import Assessment.Xml.Tree
import Assessment.Xml.Token
import Assessment.Item.Rubric
import Assessment.Xml.Dtd
import Assessment.Xml.Namespace
import Assessment.Xml.Document
import Assessment.Scoring.Session
import Assessment.Report.Item
import Assessment.Html.Tree
import Assessment.Html.Print
import Assessment.Html.Document
import Assessment.Responses
import Assessment.Images
import Assessment.Highlight
import Assessment.Cli.Run
import Assessment.Number.Decimal
import Assessment.TextFile
import Assessment.Settings.Reference
import Assessment.Main
import Assessment.Proofs.Scoring.Layout
import Assessment.Proofs.Markup.Trim
import Assessment.Proofs.Scoring.DocumentOrder
import Assessment.Proofs.Responses.Filling
import Assessment.Proofs.Report.ShownText
import Assessment.Proofs.Scoring.VisibleText
import Assessment.Proofs.Scoring.WellNested
import Assessment.Proofs.Markup.RawTag
import Assessment.Proofs.Report.CodeBlocks
import Assessment.Proofs.Report.Highlighting
import Assessment.Proofs.Markup.CountTags
import Assessment.Proofs.Report.PlainText
import Assessment.Proofs.Report.KeptTags
import Assessment.Proofs.Report.Clozes
import Assessment.Proofs.Views.Blanks
import Assessment.Proofs.Views.Rubrics
import Assessment.Proofs.Markup.Tokens
import Assessment.Proofs.Report.TokenPasses
import Assessment.Proofs.Markup.Spelling
import Assessment.Proofs.Markup.SetAttribute
import Assessment.Proofs.Markup.Classes
import Assessment.Proofs.Report.Marking
import Assessment.Proofs.Report.Idempotence
import Assessment.Proofs.Report.Roles
import Assessment.Proofs.Report.Nesting
import Assessment.Proofs.Views.Namespaces
import Assessment.Proofs.Images.Redirecting
import Assessment.Proofs.Responses.Commuting
import Assessment.Proofs.Views.Acceptance
import Assessment.Proofs.Item.Markers
import Assessment.Proofs.Markup.PlainTags
import Assessment.Proofs.Report.InlineCode
import Assessment.Proofs.Html.Undeclared
import Assessment.Proofs.Xml.Faults
import Assessment.Proofs.Report.Undeclared
import Assessment.Proofs.Cli.Ending
import Assessment.Proofs.Path.Resolving
import Assessment.Proofs.Report.Joining
import Assessment.Proofs.Responses.Overriding
import Assessment.Proofs.Scoring.ShownChoices
import Assessment.Proofs.Images.PackagePaths
import Assessment.Proofs.Report.KeptCode
import Assessment.Proofs.Xml.Encodings
import Assessment.Proofs.Markup.AddedClasses
import Assessment.Proofs.Item.Comments
import Assessment.Proofs.Item.OtherRubrics
import Assessment.Proofs.Scoring.Wrappers
import Assessment.Proofs.Images.KeptText
import Assessment.Proofs.Xml.WrittenAttributes
import Assessment.Proofs.Images.AbsoluteSources
import Assessment.Proofs.Html.Opened
import Assessment.Proofs.Responses.Shortcut
import Assessment.Proofs.Views.ClassNames
import Assessment.Proofs.Xml.Preorder
import Assessment.Proofs.Scoring.TrimmedCode
