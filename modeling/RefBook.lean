import RefBook.Build.Failure
import RefBook.Build.Run
import RefBook.Catalog.Basic
import RefBook.Catalog.Block
import RefBook.Catalog.Suggestion
import RefBook.CommandLine.Help
import RefBook.CommandLine.Reader
import RefBook.CommandLine.Session
import RefBook.CommandLine.Settings
import RefBook.Comment.Fence
import RefBook.Comment.Line
import RefBook.Decimal.Shortest
import RefBook.Json.Fault
import RefBook.Json.Numeral
import RefBook.Json.Reader
import RefBook.Json.Skip
import RefBook.Json.StringBody
import RefBook.Json.Writer
import RefBook.Main
import RefBook.Name.Anchor
import RefBook.Name.Operator
import RefBook.Name.Reference
import RefBook.Page.Document
import RefBook.Page.Prose
import RefBook.Page.Section
import RefBook.Record.Basic
import RefBook.Record.Reader
import RefBook.Record.Writer
import RefBook.Text.Basic
import RefBook.Text.Blank
import RefBook.Text.Lines
import RefBook.Text.Quoted
import RefBook.Text.Utf8
import RefBook.Unicode.Alphanumeric
import RefBook.Unicode.Casing
import RefBook.Unicode.LowerCase
import RefBook.Unicode.Ranges
import RefBook.Unicode.Unprintable
import RefBook.Unicode.WhiteSpace
import RefBook.Workspace.Path
import RefBook.Workspace.SystemError
import RefBook.Workspace.Tree
import RefBook.Proofs.Outcomes
import RefBook.Proofs.Catalog.Lookup
import RefBook.Proofs.Comment.Kinds
import RefBook.Proofs.Page.Resolution
import RefBook.Proofs.Name.Allocation
import RefBook.Proofs.Page.Index
import RefBook.Proofs.Json.Brackets
import RefBook.Proofs.Page.Anchors
import RefBook.Proofs.Record.RoundTrip
import RefBook.Proofs.Build.ExitStatus
import RefBook.Proofs.Json.Decoding
import RefBook.Proofs.Json.Fields
import RefBook.Proofs.Record.Acceptance
import RefBook.Proofs.Json.Extension
import RefBook.Proofs.Json.Truncation
import RefBook.Proofs.Record.Boundaries
import RefBook.Proofs.Workspace.Paths
import RefBook.Proofs.Workspace.Frame
import RefBook.Proofs.Build.Artifact
import RefBook.Proofs.Page.Layout
import RefBook.Proofs.Text.Separators
import RefBook.Proofs.Name.Anchors
import RefBook.Proofs.Name.Collisions
import RefBook.Proofs.Page.Headings
import RefBook.Proofs.Text.Returns
import RefBook.Proofs.Comment.Returns
import RefBook.Proofs.Catalog.Returns
import RefBook.Proofs.Page.Returns
import RefBook.Proofs.Text.Lines
import RefBook.Proofs.Page.Splicing
import RefBook.Proofs.Page.NormalForm
import RefBook.Proofs.Page.Locality
import RefBook.Proofs.Page.Styles
import RefBook.Proofs.CommandLine.Given
import RefBook.Proofs.CommandLine.Spelling
import RefBook.Proofs.Comment.Runs
import RefBook.Proofs.Catalog.Edits
import RefBook.Proofs.Page.Suggestions
import RefBook.Proofs.Name.Scanning
import RefBook.Proofs.Name.Unqualified
import RefBook.Proofs.Name.Prefixed
import RefBook.Proofs.Text.Trimming
import RefBook.Proofs.Catalog.Declarations
import RefBook.Proofs.Catalog.Signatures
import RefBook.Proofs.Comment.Entries
import RefBook.Proofs.Comment.Directives
import RefBook.Proofs.Unicode.SmallLetters
import RefBook.Proofs.Unicode.Surroundings
import RefBook.Proofs.Text.Words
import RefBook.Proofs.Name.Slugs
