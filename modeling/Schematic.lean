import Schematic.Cli.Answer
import Schematic.Cli.Options
import Schematic.Color
import Schematic.Configuration
import Schematic.Draw.Command
import Schematic.Draw.Emit
import Schematic.Draw.Label
import Schematic.Draw.Listing
import Schematic.Draw.Metrics
import Schematic.Draw.Shape
import Schematic.Draw.Svg
import Schematic.Geometry
import Schematic.Journal
import Schematic.Main
import Schematic.Model.Anchor
import Schematic.Model.Build
import Schematic.Model.Constraint
import Schematic.Model.Error
import Schematic.Model.Graph
import Schematic.Model.Lookup
import Schematic.Model.Style
import Schematic.Number.Decimal
import Schematic.Number.Numeral
import Schematic.Number.Scalar
import Schematic.Placement.Requirement
import Schematic.Placement.Simplex
import Schematic.Placement.Solution
import Schematic.Proofs.Avoidance
import Schematic.Proofs.Claiming
import Schematic.Proofs.Clearance
import Schematic.Proofs.Crossing
import Schematic.Proofs.Distance
import Schematic.Proofs.Doubles
import Schematic.Proofs.Escape
import Schematic.Proofs.Exact
import Schematic.Proofs.FixedPoint
import Schematic.Proofs.Keyed
import Schematic.Proofs.Lexemes
import Schematic.Proofs.Orthogonal
import Schematic.Proofs.Printing
import Schematic.Proofs.Rereading
import Schematic.Proofs.RoundTrip
import Schematic.Proofs.Routable
import Schematic.Proofs.Routing
import Schematic.Proofs.Shortest
import Schematic.Proofs.Sound
import Schematic.Proofs.Spelling
import Schematic.Proofs.Stepping
import Schematic.Proofs.Trimming
import Schematic.Proofs.Turning
import Schematic.Render
import Schematic.Route.Arrowhead
import Schematic.Route.Candidate
import Schematic.Route.Cell
import Schematic.Route.Connector
import Schematic.Route.Grid
import Schematic.Route.Path
import Schematic.Route.Picture
import Schematic.Route.Polyline
import Schematic.Route.Queue
import Schematic.Settings
import Schematic.Source.Document
import Schematic.Source.Equation
import Schematic.Source.Excerpt
import Schematic.Source.Lexing
import Schematic.Source.Linear
import Schematic.Source.Parsing
import Schematic.Source.Print
import Schematic.Source.Report
import Schematic.Source.Span
import Schematic.Source.Token
import Schematic.Source.Validation
import Schematic.Text.Columns
import Schematic.Text.Letter
import Schematic.Text.Lines
import Schematic.Text.Markup
import Schematic.Text.Quoted
import Schematic.Text.Range
import Schematic.Text.Space
import Schematic.Text.Visible
import Schematic.Toml.Document
import Schematic.Toml.Number
import Schematic.Toml.Quoted
import Schematic.Toml.Reader
import Schematic.Toml.Value
import Schematic.Proofs.Linearity
import Schematic.Proofs.Meaning
import Schematic.Proofs.Grammar
import Schematic.Proofs.Placing
import Schematic.Proofs.Derivation
import Schematic.Proofs.Lines
import Schematic.Proofs.Standalone
import Schematic.Proofs.Outcome
import Schematic.Proofs.Resolving
import Schematic.Proofs.Declaring
import Schematic.Proofs.Building
import Schematic.Proofs.Naming
import Schematic.Proofs.Content
import Schematic.Proofs.Asking
import Schematic.Proofs.Reordering
import Schematic.Proofs.Addressing
import Schematic.Proofs.Attempts
import Schematic.Proofs.Picking
import Schematic.Proofs.Independence
import Schematic.Proofs.Greedy
import Schematic.Proofs.Tiling
import Schematic.Proofs.Locating
import Schematic.Proofs.Tags
import Schematic.Proofs.Inheriting
import Schematic.Proofs.Frames
import Schematic.Proofs.Severing
import Schematic.Proofs.Foremost
import Schematic.Proofs.Settling
import Schematic.Proofs.Leaving
import Schematic.Proofs.Travel
import Schematic.Proofs.Cutting
import Schematic.Proofs.Facing
import Schematic.Proofs.Skipping
import Schematic.Proofs.Heads
import Schematic.Proofs.Colouring
import Schematic.Proofs.Compact
import Schematic.Proofs.Replaying
import Schematic.Proofs.Commenting
import Schematic.Proofs.LineEnds
import Schematic.Proofs.Returns
import Schematic.Proofs.Within
import Schematic.Proofs.Merging
import Schematic.Proofs.Rounding
import Schematic.Proofs.Packing
import Schematic.Proofs.Decimals
import Schematic.Proofs.Literals
import Schematic.Proofs.Digits
import Schematic.Proofs.Numbers
import Schematic.Proofs.Arithmetic
import Schematic.Proofs.PathData
import Schematic.Proofs.Elements
import Schematic.Proofs.Drawing
import Schematic.Proofs.Labels
