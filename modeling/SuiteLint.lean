import SuiteLint.Abort
import SuiteLint.Config
import SuiteLint.Console
import SuiteLint.Decimal.Binary
import SuiteLint.Decimal.Shortest
import SuiteLint.Discovery
import SuiteLint.Issue
import SuiteLint.Json.Reader
import SuiteLint.Json.Scalar
import SuiteLint.Json.Spelling
import SuiteLint.Json.Value
import SuiteLint.Json.Writer
import SuiteLint.Main
import SuiteLint.Note
import SuiteLint.Options
import SuiteLint.Options.Argument
import SuiteLint.Options.Usage
import SuiteLint.Path
import SuiteLint.Render
import SuiteLint.Report
import SuiteLint.Review
import SuiteLint.Role
import SuiteLint.Rule.Comment
import SuiteLint.Rule.Layer
import SuiteLint.Rule.Line
import SuiteLint.Rule.Structure
import SuiteLint.Run
import SuiteLint.Source
import SuiteLint.Summary
import SuiteLint.Text.Character
import SuiteLint.Text.Quoted
import SuiteLint.Text.Utf8
import SuiteLint.Text.Numeral
import SuiteLint.Text.Printable
import SuiteLint.Text.Search
import SuiteLint.Text.Word
import SuiteLint.Files.Canonical
import SuiteLint.Files.Change
import SuiteLint.Files.Folder
import SuiteLint.Files.Lookup
import SuiteLint.Proofs.Review.Findings
import SuiteLint.Proofs.Review.Passes
import SuiteLint.Proofs.Text.Blank
import SuiteLint.Proofs.Text.Answers
import SuiteLint.Proofs.Review.Concatenation
import SuiteLint.Proofs.Score
import SuiteLint.Proofs.Text.Margins
import SuiteLint.Proofs.Rule.Margins
import SuiteLint.Proofs.Rule.Locator
import SuiteLint.Proofs.Text.Pattern
import SuiteLint.Proofs.Rule.Slashes
import SuiteLint.Proofs.Review.Layout
import SuiteLint.Proofs.Path.Names
import SuiteLint.Proofs.Discovery.Ways
import SuiteLint.Proofs.Discovery.Filter
import SuiteLint.Proofs.Discovery.Find
import SuiteLint.Proofs.Discovery.Limits
import SuiteLint.Proofs.Json.RoundTrip
import SuiteLint.Proofs.Json.Printable
import SuiteLint.Proofs.Render.Document
import SuiteLint.Proofs.Source.Reading
import SuiteLint.Proofs.Files.Place
import SuiteLint.Proofs.Path.Normal
import SuiteLint.Proofs.Files.Naming
import SuiteLint.Proofs.Discovery.Names
import SuiteLint.Proofs.Options.Switches
import SuiteLint.Proofs.Options.Path
import SuiteLint.Proofs.Text.Numeral
import SuiteLint.Proofs.Options.Arrangement
import SuiteLint.Proofs.Text.Utf8
import SuiteLint.Proofs.Source.Chunks
import SuiteLint.Proofs.Run.Outcomes
import SuiteLint.Proofs.Run.Status
import SuiteLint.Proofs.Pool
import SuiteLint.Proofs.Source.Jobs
import SuiteLint.Proofs.Source.Faults
import SuiteLint.Proofs.Json.Outline
import SuiteLint.Proofs.Json.Limits
import SuiteLint.Proofs.Json.Members
import SuiteLint.Proofs.Config.Members
import SuiteLint.Proofs.Run.Settings
import SuiteLint.Proofs.Config.Survival
import SuiteLint.Proofs.Json.Grammar
import SuiteLint.Proofs.Run.Printing
import SuiteLint.Proofs.Run.Totals
import SuiteLint.Proofs.Review.Backing
import SuiteLint.Proofs.Review.Assertions
import SuiteLint.Proofs.Path.Components
import SuiteLint.Proofs.Role
import SuiteLint.Proofs.Path.Lexical
import SuiteLint.Proofs.Console
import SuiteLint.Proofs.Run.Colors
import SuiteLint.Proofs.Rule.Words
