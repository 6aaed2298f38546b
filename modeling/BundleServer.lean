import BundleServer.Bundle.Composer
import BundleServer.Bundle.Concatenation
import BundleServer.Bundle.Error
import BundleServer.Bundle.Kind
import BundleServer.Bundle.Markers
import BundleServer.Bundle.Merge
import BundleServer.Bytes
import BundleServer.CommandLine.Options
import BundleServer.CommandLine.Startup
import BundleServer.CommandLine.Usage
import BundleServer.Decimal.Binary64
import BundleServer.Decimal.Shortest
import BundleServer.FileTree.Basic
import BundleServer.FileTree.Change
import BundleServer.FileTree.Fault
import BundleServer.FileTree.Lemmas
import BundleServer.FileTree.Node
import BundleServer.Fragment
import BundleServer.Http.Percent
import BundleServer.Http.Response
import BundleServer.Http.Service
import BundleServer.Http.StaticFiles
import BundleServer.Json.Fault
import BundleServer.Json.Literal
import BundleServer.Json.Numeral
import BundleServer.Json.Parser
import BundleServer.Json.Printer
import BundleServer.Json.Reader
import BundleServer.Json.Value
import BundleServer.Layout
import BundleServer.Log.Event
import BundleServer.Log.Filter
import BundleServer.Log.Level
import BundleServer.Main
import BundleServer.Namespace
import BundleServer.Path
import BundleServer.Pattern.Basic
import BundleServer.Pattern.Brackets
import BundleServer.Pattern.CharSet
import BundleServer.Pattern.Cursor
import BundleServer.Pattern.Escape
import BundleServer.Pattern.Expression
import BundleServer.Pattern.Fault
import BundleServer.Pattern.Interpretation
import BundleServer.Pattern.Marking
import BundleServer.Pattern.Matching
import BundleServer.Pattern.Meaning
import BundleServer.Pattern.Nesting
import BundleServer.Pattern.Opening
import BundleServer.Pattern.Parser
import BundleServer.Pattern.Size
import BundleServer.Proofs.Bundle.Accounting
import BundleServer.Proofs.Bundle.Concatenation
import BundleServer.Proofs.Bundle.Isolation
import BundleServer.Proofs.Bundle.Mapping
import BundleServer.Proofs.Bundle.Markers
import BundleServer.Proofs.Bundle.Merge
import BundleServer.Proofs.Bundle.Names
import BundleServer.Proofs.Bundle.Outcome
import BundleServer.Proofs.Bundle.Passes
import BundleServer.Proofs.Bundle.Prevailing
import BundleServer.Proofs.Bundle.Rearrangement
import BundleServer.Proofs.Bundle.Relocation
import BundleServer.Proofs.Bundle.Scope
import BundleServer.Proofs.Bundle.Selection
import BundleServer.Proofs.Bundle.Sequence
import BundleServer.Proofs.CommandLine.Arguments
import BundleServer.Proofs.FileTree.Absence
import BundleServer.Proofs.FileTree.Descent
import BundleServer.Proofs.FileTree.Places
import BundleServer.Proofs.FileTree.Pruning
import BundleServer.Proofs.FileTree.Relisting
import BundleServer.Proofs.FileTree.Restriction
import BundleServer.Proofs.FileTree.Scope
import BundleServer.Proofs.FileTree.Skeleton
import BundleServer.Proofs.FileTree.Standing
import BundleServer.Proofs.Http.Bundles
import BundleServer.Proofs.Http.Envelope
import BundleServer.Proofs.Http.Escapes
import BundleServer.Proofs.Http.Files
import BundleServer.Proofs.Http.Location
import BundleServer.Proofs.Http.Missing
import BundleServer.Proofs.Http.Percent
import BundleServer.Proofs.Http.Refusal
import BundleServer.Proofs.Http.Scope
import BundleServer.Proofs.Json.Literals
import BundleServer.Proofs.Json.Members
import BundleServer.Proofs.Json.Numerals
import BundleServer.Proofs.Json.Parsed
import BundleServer.Proofs.Json.RoundTrip
import BundleServer.Proofs.Namespace
import BundleServer.Proofs.Order
import BundleServer.Proofs.Path
import BundleServer.Proofs.Settings
import BundleServer.Proofs.Text.Blank
import BundleServer.Proofs.Text.Quoted
import BundleServer.Proofs.Text.Utf8
import BundleServer.Proofs.Walk.Ascent
import BundleServer.Proofs.Walk.Ending
import BundleServer.Proofs.Walk.Files
import BundleServer.Proofs.Walk.Keys
import BundleServer.Proofs.Walk.OneFile
import BundleServer.Proofs.Walk.Reordering
import BundleServer.Proofs.Walk.Session
import BundleServer.Proofs.Walk.Traversal
import BundleServer.Proofs.Walk.Visits
import BundleServer.Settings
import BundleServer.Text.Blank
import BundleServer.Text.GraphemeExtend
import BundleServer.Text.Hex
import BundleServer.Text.Letters
import BundleServer.Text.Pieces
import BundleServer.Text.Quoted
import BundleServer.Text.Ranges
import BundleServer.Text.Terminal
import BundleServer.Text.Unprintable
import BundleServer.Text.Utf8
import BundleServer.Walk.Basic
import BundleServer.Walk.Order
