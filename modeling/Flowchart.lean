import Flowchart.Canvas.Basic
import Flowchart.Canvas.BoxStyle
import Flowchart.Canvas.Line
import Flowchart.Canvas.Picture
import Flowchart.Canvas.Preview
import Flowchart.Command.Listing
import Flowchart.Command.Options
import Flowchart.Command.Run
import Flowchart.Diagram.Basic
import Flowchart.Diagram.Patch
import Flowchart.Diagram.Registry
import Flowchart.Diagram.Source
import Flowchart.Element.Basic
import Flowchart.Element.Synthesis
import Flowchart.Grammar.Edge
import Flowchart.Grammar.Mention
import Flowchart.Grammar.Scan
import Flowchart.Grammar.Shape
import Flowchart.Json
import Flowchart.Layout.Level
import Flowchart.Layout.Placement
import Flowchart.Layout.Settings
import Flowchart.Literal.Grammar
import Flowchart.Literal.Fault
import Flowchart.Literal.Peg
import Flowchart.Literal.Quotation
import Flowchart.Literal.Token
import Flowchart.Literal.Value
import Flowchart.Main
import Flowchart.Markup.Piece
import Flowchart.Markup.Reader
import Flowchart.Markup.StyleName
import Flowchart.Number.Basic
import Flowchart.Number.Binary64
import Flowchart.Number.Decimal
import Flowchart.Proofs.Canvas.Action
import Flowchart.Proofs.Canvas.Arrows
import Flowchart.Proofs.Canvas.Backing
import Flowchart.Proofs.Canvas.Cells
import Flowchart.Proofs.Canvas.Confined
import Flowchart.Proofs.Canvas.Connector
import Flowchart.Proofs.Canvas.EdgeLabels
import Flowchart.Proofs.Canvas.Faces
import Flowchart.Proofs.Canvas.Fitting
import Flowchart.Proofs.Canvas.Glyphs
import Flowchart.Proofs.Canvas.Insertions
import Flowchart.Proofs.Canvas.Labels
import Flowchart.Proofs.Canvas.Line
import Flowchart.Proofs.Canvas.Overflow
import Flowchart.Proofs.Canvas.Picture
import Flowchart.Proofs.Canvas.Preview
import Flowchart.Proofs.Canvas.Rearranged
import Flowchart.Proofs.Canvas.Retained
import Flowchart.Proofs.Canvas.Room
import Flowchart.Proofs.Canvas.Shifted
import Flowchart.Proofs.Canvas.SideBySide
import Flowchart.Proofs.Canvas.Sketch
import Flowchart.Proofs.Canvas.Sound
import Flowchart.Proofs.Canvas.Tags
import Flowchart.Proofs.Canvas.Tiling
import Flowchart.Proofs.Canvas.Visible
import Flowchart.Proofs.Command.Publishing
import Flowchart.Proofs.Diagram.Changes
import Flowchart.Proofs.Diagram.Closed
import Flowchart.Proofs.Diagram.Content
import Flowchart.Proofs.Diagram.History
import Flowchart.Proofs.Diagram.Labels
import Flowchart.Proofs.Diagram.Outcome
import Flowchart.Proofs.Diagram.Patch
import Flowchart.Proofs.Diagram.Relabel
import Flowchart.Proofs.Diagram.Reordered
import Flowchart.Proofs.Diagram.Roundtrip
import Flowchart.Proofs.Element.Conversion
import Flowchart.Proofs.Element.Distinct
import Flowchart.Proofs.Element.Draws
import Flowchart.Proofs.Element.Exact
import Flowchart.Proofs.Element.Outcome
import Flowchart.Proofs.Fallible
import Flowchart.Proofs.FirstOccurrence
import Flowchart.Proofs.Grammar.Compact
import Flowchart.Proofs.Grammar.Declaration
import Flowchart.Proofs.Grammar.EdgeLine
import Flowchart.Proofs.Grammar.Labelled
import Flowchart.Proofs.Grammar.Leftmost
import Flowchart.Proofs.Grammar.Overrun
import Flowchart.Proofs.Grammar.Reader
import Flowchart.Proofs.Grammar.SourceShape
import Flowchart.Proofs.Grammar.Unambiguous
import Flowchart.Proofs.Json.Display
import Flowchart.Proofs.Layout.Apart
import Flowchart.Proofs.Layout.Distance
import Flowchart.Proofs.Layout.Expansion
import Flowchart.Proofs.Layout.Placed
import Flowchart.Proofs.Layout.Rows
import Flowchart.Proofs.Markup.Cut
import Flowchart.Proofs.Markup.Reading
import Flowchart.Proofs.Markup.Tags
import Flowchart.Proofs.Number.Exact
import Flowchart.Proofs.Server.Accepted
import Flowchart.Proofs.Server.Answered
import Flowchart.Proofs.Text.Fit
import Flowchart.Proofs.Text.Lines
import Flowchart.Random.Generator
import Flowchart.Server.Client
import Flowchart.Server.Answer
import Flowchart.Server.Exchange
import Flowchart.Sorting
import Flowchart.Text.Blank
import Flowchart.Text.Case
import Flowchart.Text.Combining
import Flowchart.Text.Quoted
import Flowchart.Text.Numeral
import Flowchart.Text.Utf8
import Flowchart.Text.Width
import Flowchart.Text.Word
