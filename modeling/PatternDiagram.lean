import PatternDiagram.Command.Arguments
import PatternDiagram.Command.Folder
import PatternDiagram.Command.Path
import PatternDiagram.Command.Report
import PatternDiagram.Decimal.Binary
import PatternDiagram.Decimal.Fixed
import PatternDiagram.Decimal.Reader
import PatternDiagram.Decimal.Shortest
import PatternDiagram.Drawing.Config
import PatternDiagram.Drawing.Environment
import PatternDiagram.Drawing.Parts
import PatternDiagram.Drawing.Walk
import PatternDiagram.Json.Basic
import PatternDiagram.Json.Expression
import PatternDiagram.Main
import PatternDiagram.Pattern.Basic
import PatternDiagram.Pattern.Label
import PatternDiagram.Pattern.Ranges
import PatternDiagram.Pattern.References
import PatternDiagram.Pattern.Repeat
import PatternDiagram.Plane.Box
import PatternDiagram.Plane.Coordinate
import PatternDiagram.Plane.Extent
import PatternDiagram.Plane.Layout
import PatternDiagram.Plane.Shape
import PatternDiagram.Proofs.Acceptance
import PatternDiagram.Proofs.Axes
import PatternDiagram.Proofs.Bare
import PatternDiagram.Proofs.Bounds
import PatternDiagram.Proofs.Brackets
import PatternDiagram.Proofs.Bytes
import PatternDiagram.Proofs.Captures
import PatternDiagram.Proofs.Characters
import PatternDiagram.Proofs.Clashes
import PatternDiagram.Proofs.Closings
import PatternDiagram.Proofs.Counts
import PatternDiagram.Proofs.Coverage
import PatternDiagram.Proofs.Descent
import PatternDiagram.Proofs.Documents
import PatternDiagram.Proofs.Doubles
import PatternDiagram.Proofs.Drawn
import PatternDiagram.Proofs.Exhibits
import PatternDiagram.Proofs.Figures
import PatternDiagram.Proofs.Forks
import PatternDiagram.Proofs.Gathering
import PatternDiagram.Proofs.Grammar
import PatternDiagram.Proofs.Histories
import PatternDiagram.Proofs.LastWord
import PatternDiagram.Proofs.Legends
import PatternDiagram.Proofs.LineFeeds
import PatternDiagram.Proofs.Lines
import PatternDiagram.Proofs.Literals
import PatternDiagram.Proofs.Locks
import PatternDiagram.Proofs.Margins
import PatternDiagram.Proofs.Markup
import PatternDiagram.Proofs.Measures
import PatternDiagram.Proofs.Members
import PatternDiagram.Proofs.Milestones
import PatternDiagram.Proofs.Mounting
import PatternDiagram.Proofs.Names
import PatternDiagram.Proofs.Notices
import PatternDiagram.Proofs.Numbering
import PatternDiagram.Proofs.Numerals
import PatternDiagram.Proofs.Offsets
import PatternDiagram.Proofs.Pictures
import PatternDiagram.Proofs.Points
import PatternDiagram.Proofs.Positionals
import PatternDiagram.Proofs.Printing
import PatternDiagram.Proofs.Progress
import PatternDiagram.Proofs.Rails
import PatternDiagram.Proofs.Refusals
import PatternDiagram.Proofs.Repetitions
import PatternDiagram.Proofs.RoundTrip
import PatternDiagram.Proofs.Routes
import PatternDiagram.Proofs.Scanner
import PatternDiagram.Proofs.Scanning
import PatternDiagram.Proofs.Schedules
import PatternDiagram.Proofs.Scripts
import PatternDiagram.Proofs.Siblings
import PatternDiagram.Proofs.Sites
import PatternDiagram.Proofs.Slashes
import PatternDiagram.Proofs.Spacing
import PatternDiagram.Proofs.Spans
import PatternDiagram.Proofs.Spelling
import PatternDiagram.Proofs.Stops
import PatternDiagram.Proofs.Styles
import PatternDiagram.Proofs.Tokens
import PatternDiagram.Proofs.Turns
import PatternDiagram.Proofs.Unchecked
import PatternDiagram.Proofs.Unfolding
import PatternDiagram.Proofs.Walks
import PatternDiagram.Proofs.WellFormed
import PatternDiagram.Proofs.Wording
import PatternDiagram.Proofs.Words
import PatternDiagram.Reading.ClassBody
import PatternDiagram.Reading.Escape
import PatternDiagram.Reading.Fault
import PatternDiagram.Reading.Machine
import PatternDiagram.Reading.Reader
import PatternDiagram.Reading.Source
import PatternDiagram.Reading.Token
import PatternDiagram.Render.Lock
import PatternDiagram.Render.Renderer
import PatternDiagram.Render.Schedule
import PatternDiagram.Render.Ticket
import PatternDiagram.Render.TicketBook
import PatternDiagram.Render.Tree
import PatternDiagram.Svg.Document
import PatternDiagram.Svg.Number
import PatternDiagram.Text.Blank
import PatternDiagram.Text.CodeRange
import PatternDiagram.Text.Letter
import PatternDiagram.Text.Numeral
import PatternDiagram.Text.Quoted
import PatternDiagram.Proofs.Contents
