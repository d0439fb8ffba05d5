import Flowchart.Canvas.Basic
import Flowchart.Markup.Piece
import Flowchart.Text.Blank

/-! # Pictures of a canvas

The picture of a canvas has a line for every row, without trailing blanks and without empty lines at
the end.  A plain line shows the glyphs of its cells.  A marked line shows the tags of its cells as
well; since they cut the line into runs, each run of glyphs is escaped on its own. -/

namespace Flowchart

/-- A part of a marked line: glyphs, which are escaped, or a tag. -/
inductive Segment
  | run (glyphs : List Char)
  | tag (markup : String)
deriving DecidableEq, Repr

/-- A segment as it is written. -/
def Segment.text : Segment → List Char
  | run glyphs => Markup.escapeChars glyphs
  | tag markup => markup.toList

namespace Cell

/-- A cell with a tag. -/
def isMarked (c : Cell) : Bool := !c.opening.isEmpty || !c.closing.isEmpty

/-- A cell that a wide glyph beside it covers is not shown. -/
def isShown (c : Cell) : Bool := c.width != 0

/-- The segments of a marked cell. -/
def segments (c : Cell) : List Segment :=
  c.opening.map .tag ++ [.run c.glyph.toList] ++ c.closing.map .tag

end Cell

/-- The glyphs of the cells that are shown. -/
def glyphs (row : List Cell) : List Char :=
  (row.filter Cell.isShown).flatMap fun cell => cell.glyph.toList

/-- The segments of a row after a run of glyphs; blanks at its end are not part of the last run. -/
def segmentsFrom (run : List Char) : List Cell → List Segment
  | [] => [.run (Text.trimEnd run)]
  | cell :: rest =>
    if !cell.isShown then segmentsFrom run rest
    else if cell.isMarked then .run run :: cell.segments ++ segmentsFrom [] rest
    else segmentsFrom (run ++ cell.glyph.toList) rest

def segments (row : List Cell) : List Segment := segmentsFrom [] row

/-- The plain line of a row. -/
def plainLine (row : List Cell) : List Char := Text.trimEnd (glyphs row)

/-- The marked line of a row. -/
def markedLine (row : List Cell) : List Char :=
  Text.trimEnd ((segments row).flatMap Segment.text)

/-- Lines without the empty ones at the end. -/
def dropEmptyLines (lines : List (List Char)) : List (List Char) :=
  (lines.reverse.dropWhile List.isEmpty).reverse

def joinLines (lines : List (List Char)) : String :=
  "\n".intercalate (lines.map String.ofList)

namespace Canvas

/-- The cells row by row. -/
def cells (c : Canvas) : List (List Cell) := c.rows.toList.map Vector.toList

/-- The picture of a canvas, plain or marked. -/
def picture (c : Canvas) (marked : Bool) : String :=
  joinLines (dropEmptyLines (c.cells.map (if marked then markedLine else plainLine)))

end Canvas

end Flowchart
