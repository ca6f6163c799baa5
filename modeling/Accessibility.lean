import Accessibility.Audit.Aria
import Accessibility.Audit.Forms
import Accessibility.Audit.Headings
import Accessibility.Audit.Images
import Accessibility.Audit.Issue
import Accessibility.Audit.Page
import Accessibility.Audit.Report
import Accessibility.Color.Basic
import Accessibility.Color.Contrast
import Accessibility.CommandLine.Arguments
import Accessibility.CommandLine.Files
import Accessibility.CommandLine.Grammar
import Accessibility.CommandLine.Report
import Accessibility.CommandLine.Run
import Accessibility.Console.Escape
import Accessibility.Console.Event
import Accessibility.Exercise.Activity
import Accessibility.Exercise.Images
import Accessibility.Exercise.Keyboard
import Accessibility.Exercise.Labels
import Accessibility.Exercise.Outline
import Accessibility.Exercise.Style
import Accessibility.Exercise.Verdict
import Accessibility.Exercise.Verify
import Accessibility.Fault
import Accessibility.Journal.Record
import Accessibility.Journal.Registry
import Accessibility.Json.Basic
import Accessibility.Json.Printer
import Accessibility.Json.Reader
import Accessibility.Json.Shown
import Accessibility.Main
import Accessibility.Markup.Attribute
import Accessibility.Markup.Element
import Accessibility.Markup.Tag
import Accessibility.Number.Binary64
import Accessibility.Number.Decimal
import Accessibility.Number.HalfUp
import Accessibility.Number.Numeral
import Accessibility.Number.Power
import Accessibility.Number.Shortest
import Accessibility.Progress.Badge
import Accessibility.Progress.Date
import Accessibility.Progress.Level
import Accessibility.Progress.Reward
import Accessibility.Progress.Session
import Accessibility.Progress.Streak
import Accessibility.Proofs.Audit.Case
import Accessibility.Proofs.Audit.Composition
import Accessibility.Proofs.Audit.Labels
import Accessibility.Proofs.Audit.Ledger
import Accessibility.Proofs.Audit.Numbers
import Accessibility.Proofs.Audit.Score
import Accessibility.Proofs.Color.Form
import Accessibility.Proofs.Color.Grammar
import Accessibility.Proofs.Color.Parse
import Accessibility.Proofs.Color.Verdict
import Accessibility.Proofs.CommandLine.Accepted
import Accessibility.Proofs.CommandLine.Arguments
import Accessibility.Proofs.CommandLine.Data
import Accessibility.Proofs.CommandLine.Failure
import Accessibility.Proofs.CommandLine.Files
import Accessibility.Proofs.CommandLine.Grammar
import Accessibility.Proofs.CommandLine.Indifference
import Accessibility.Proofs.CommandLine.Insertion
import Accessibility.Proofs.CommandLine.Loudness
import Accessibility.Proofs.CommandLine.Output
import Accessibility.Proofs.CommandLine.Records
import Accessibility.Proofs.CommandLine.Run
import Accessibility.Proofs.CommandLine.Sources
import Accessibility.Proofs.CommandLine.Step
import Accessibility.Proofs.CommandLine.Word
import Accessibility.Proofs.Console.Escape
import Accessibility.Proofs.Console.Mark
import Accessibility.Proofs.Console.Reader
import Accessibility.Proofs.Exercise.Alternatives
import Accessibility.Proofs.Exercise.Case
import Accessibility.Proofs.Exercise.Connection
import Accessibility.Proofs.Exercise.Contrast
import Accessibility.Proofs.Exercise.Faults
import Accessibility.Proofs.Exercise.Nesting
import Accessibility.Proofs.Exercise.Outline
import Accessibility.Proofs.Exercise.TabOrder
import Accessibility.Proofs.Journal.Registry
import Accessibility.Proofs.Json.Result
import Accessibility.Proofs.Json.RoundTrip
import Accessibility.Proofs.Json.Scalar
import Accessibility.Proofs.Markup.Aria
import Accessibility.Proofs.Markup.Attribute
import Accessibility.Proofs.Markup.AttributeScan
import Accessibility.Proofs.Markup.Case
import Accessibility.Proofs.Markup.Document
import Accessibility.Proofs.Markup.ElementScan
import Accessibility.Proofs.Markup.Embedding
import Accessibility.Proofs.Markup.Heading
import Accessibility.Proofs.Markup.Opening
import Accessibility.Proofs.Markup.Quoted
import Accessibility.Proofs.Markup.RoundTrip
import Accessibility.Proofs.Markup.Seam
import Accessibility.Proofs.Markup.TagScan
import Accessibility.Proofs.Number.Nearest
import Accessibility.Proofs.Number.Numeral
import Accessibility.Proofs.Number.Root
import Accessibility.Proofs.Number.Rounding
import Accessibility.Proofs.Progress.Daily
import Accessibility.Proofs.Progress.Day
import Accessibility.Proofs.Progress.Experience
import Accessibility.Proofs.Progress.Ledger
import Accessibility.Proofs.Progress.Level
import Accessibility.Proofs.Progress.Milestones
import Accessibility.Proofs.Progress.Order
import Accessibility.Proofs.Progress.Session
import Accessibility.Proofs.Progress.Streak
import Accessibility.Proofs.Style.Case
import Accessibility.Proofs.Style.Sheet
import Accessibility.Proofs.Text.Ascii
import Accessibility.Proofs.Text.Blank
import Accessibility.Proofs.Text.Case
import Accessibility.Proofs.Text.Concatenation
import Accessibility.Proofs.Text.Loose
import Accessibility.Proofs.Text.Names
import Accessibility.Proofs.Text.Newline
import Accessibility.Proofs.Text.Occurrences
import Accessibility.Proofs.Text.Place
import Accessibility.Proofs.Text.Utf8
import Accessibility.Style.Declaration
import Accessibility.Text.Basic
import Accessibility.Text.Blank
import Accessibility.Text.CharSet
import Accessibility.Text.Digit
import Accessibility.Text.Loose
import Accessibility.Text.Lower
import Accessibility.Text.Newline
import Accessibility.Text.Printable
import Accessibility.Text.Quoted
import Accessibility.Text.Search
import Accessibility.Text.Utf8
import Accessibility.Text.Word
import Accessibility.Value
