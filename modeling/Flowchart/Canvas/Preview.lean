import Flowchart.Canvas.BoxStyle
import Flowchart.Canvas.Line
import Flowchart.Canvas.Picture
import Flowchart.Element.Basic

/-! # Preview of a drawing

A preview draws elements on a canvas of character cells, ten units wide and twenty high, that is
just large enough for all shapes.  Shapes are drawn first, as boxes with a label in the middle.  A
connector is the first free stretch of the line between its ends, with an arrow tip on the last
cell; its label is drawn beside the middle if there is room.  Nothing of a connector is drawn inside
a box or over what is there. -/

namespace Flowchart

/-- The ways in which drawing fails. -/
inductive PreviewError
  | overflow (o : Overflow)
  | arithmetic (e : ArithmeticError)
deriving DecidableEq, Repr

def PreviewError.message : PreviewError → String
  | overflow o => o.message
  | arithmetic e => e.message

/-- The units that a cell is wide. -/
def unitsPerColumn : Number := 10

/-- The units that a cell is high. -/
def unitsPerRow : Number := 20

/-- The free cells around a drawing. -/
def padding : Int := 1

/-- The cell of a coordinate, counted from an origin. -/
def cellOf (value scale origin : Number) : Except ArithmeticError Int := do
  let offset ← value.sub origin
  let quotient ← offset.floorDiv scale
  return (← quotient.toInt) + padding

/-! ### Boxes -/

/-- A rectangle of cells, from its first to its last column and row. -/
structure Box where
  left : Int
  top : Int
  right : Int
  bottom : Int
deriving DecidableEq, Repr

namespace Box

/-- A place lies in the box, its edge included. -/
def contains (b : Box) (p : Place) : Bool :=
  b.left ≤ p.1 && p.1 ≤ b.right && b.top ≤ p.2 && p.2 ≤ b.bottom

/-- The columns between the left and the right edge. -/
def innerWidth (b : Box) : Int := b.right - b.left - 1

/-- The row of the label. -/
def middle (b : Box) : Int := (b.top + b.bottom) / 2

/-- The column where a centred label starts. -/
def labelColumn [Text.Measure] (b : Box) (label : String) : Int :=
  b.left + 1 + (b.innerWidth - Text.displayWidth label) / 2

end Box

/-- The smallest coordinates of the shapes. -/
structure Origin where
  x : Number
  y : Number
deriving DecidableEq, Repr

/-- The box of a shape, three columns and two rows wide at least. -/
def ShapeElement.box (s : ShapeElement) (o : Origin) : Except ArithmeticError Box := do
  let left ← cellOf s.x unitsPerColumn o.x
  let top ← cellOf s.y unitsPerRow o.y
  let right := max ((← cellOf (← s.right) unitsPerColumn o.x) - 1) (left + 3)
  let bottom := max ((← cellOf (← s.bottom) unitsPerRow o.y) - 1) (top + 2)
  return { left, top, right, bottom }

/-! ### Drawing shapes -/

def ShapeElement.glyphs (s : ShapeElement) (ascii : Bool) : BoxGlyphs :=
  if ascii then .ascii
  else if s.kind = .diamond then .diamond
  else if s.kind = .ellipse ∨ s.style.isRounded = true then .round
  else .square

/-- The tag that opens the style of a shape's label. -/
def ElementKind.tag : ElementKind → String
  | rectangle => "[bold cyan]"
  | diamond => "[bold yellow]"
  | ellipse => "[bold magenta]"
  | arrow => "[bold]"

/-- The tag that closes the last open style. -/
def closingTag : String := "[/]"

/-- The integers after `first` and before `stop`. -/
def between (first stop : Int) : List Int :=
  (List.range (stop - first - 1).toNat).map fun (i : Nat) => first + 1 + (i : Int)

namespace Canvas

/-- Draws a glyph that takes one cell. -/
def drawGlyph (x y : Int) (glyph : Char) : Action Unit := draw x y glyph.toString 1

/-- Draws the edges of a box and clears its inside. -/
def drawBox (g : BoxGlyphs) (b : Box) : Action Unit := do
  (between b.left b.right).forM fun x => do
    drawGlyph x b.top g.horizontal
    drawGlyph x b.bottom g.horizontal
  (between b.top b.bottom).forM fun y => do
    drawGlyph b.left y g.vertical
    drawGlyph b.right y g.vertical
    (between b.left b.right).forM fun x => drawGlyph x y ' '
  drawGlyph b.left b.top g.topLeft
  drawGlyph b.right b.top g.topRight
  drawGlyph b.left b.bottom g.bottomLeft
  drawGlyph b.right b.bottom g.bottomRight

/-- Draws a box with its label, and marks the label with tags. -/
def drawLabelled [Text.Measure] (g : BoxGlyphs) (b : Box) (text tag : String) : Action Unit := do
  drawBox g b
  let label := Text.fitText text b.innerWidth
  let stop ← write (b.labelColumn label) b.middle label
  if label ≠ "" then
    modify fun c => (c.mark (b.labelColumn label) b.middle tag .before).mark (stop - 1) b.middle
      closingTag .after

end Canvas

/-- A canvas on which some boxes have been drawn. -/
structure Sketch where
  canvas : Canvas
  boxes : List Box

namespace Sketch

/-- Carries out an action. -/
def perform (s : Sketch) (action : Canvas.Action Unit) : Except PreviewError Sketch :=
  let ⟨canvas, boxes⟩ := s
  match action.run canvas with
  | .ok _ canvas => .ok ⟨canvas, boxes⟩
  | .error o _ => .error (.overflow o)

/-- A place is empty and in no box. -/
def isFree (s : Sketch) (p : Place) : Bool :=
  s.canvas.isBlank p.1 p.2 && !s.boxes.any fun b => b.contains p

/-- Draws a shape. -/
def addShape [Text.Measure] (ascii : Bool) (o : Origin) (s : Sketch) (e : ShapeElement) :
    Except PreviewError Sketch := do
  let b ← (e.box o).mapError .arithmetic
  let s ← s.perform (Canvas.drawLabelled (e.glyphs ascii) b e.text e.kind.tag)
  return { s with boxes := s.boxes ++ [b] }

end Sketch

/-! ### Drawing connectors -/

def connectorGlyphs (ascii : Bool) : BoxGlyphs := if ascii then .ascii else .square

/-- The tip of a connector that runs by `dx` and `dy`. -/
def BoxGlyphs.tip (g : BoxGlyphs) (dx dy : Int) : Char :=
  if dx.natAbs ≤ dy.natAbs then (if 0 < dy then g.arrowDown else g.arrowUp)
  else (if 0 < dx then g.arrowRight else g.arrowLeft)

def trailTag : String := "[dim]"

/-- The cells that the label of a connector may take. -/
def labelLimit : Int := 12

namespace Canvas

def drawTrail (glyph : Char) (cells : List Place) : Action Unit :=
  cells.forM fun (x, y) => do
    drawGlyph x y glyph
    modify fun c => (c.mark x y trailTag .before).mark x y closingTag .after

end Canvas

namespace Sketch

/-- The first free stretch of a line. -/
def freeStretch (s : Sketch) (line : List Place) : List Place :=
  (line.dropWhile fun p => !s.isFree p).takeWhile s.isFree

/-- Draws the label of a connector beside the middle of its stretch, if its cells are free. -/
def addLabel [Text.Measure] (s : Sketch) (text : String) (stretch : List Place) :
    Except PreviewError Sketch :=
  let (x, y) := stretch.getD (stretch.length / 2) (0, 0)
  let label := Text.fitText text labelLimit
  let cells := (List.range (Text.displayWidth label)).map fun (i : Nat) => (x + 1 + (i : Int), y)
  if cells.all s.isFree then s.perform (do let _ ← Canvas.write (x + 1) y label) else .ok s

/-- Draws a connector between two cells. -/
def addLine [Text.Measure] (ascii : Bool) (s : Sketch) (start stop : Place) (text : String) :
    Except PreviewError Sketch := do
  let g := connectorGlyphs ascii
  let stretch := s.freeStretch (lineCells start stop)
  match stretch.getLast? with
  | none => return s
  | some (x, y) =>
    let s ← s.perform (Canvas.drawTrail g.trail stretch.dropLast)
    let s ← s.perform (Canvas.drawGlyph x y (g.tip (stop.1 - start.1) (stop.2 - start.2)))
    if text = "" then return s else s.addLabel text stretch

/-- Draws a connector. -/
def addConnector [Text.Measure] (ascii : Bool) (o : Origin) (s : Sketch) (e : ConnectorElement) :
    Except PreviewError Sketch := do
  let startX ← (cellOf e.start.x unitsPerColumn o.x).mapError .arithmetic
  let startY ← (cellOf e.start.y unitsPerRow o.y).mapError .arithmetic
  let stopX ← (cellOf e.stop.x unitsPerColumn o.x).mapError .arithmetic
  let stopY ← (cellOf e.stop.y unitsPerRow o.y).mapError .arithmetic
  s.addLine ascii (startX, startY) (stopX, stopY) (e.text.getD "")

end Sketch

/-! ### Previews -/

/-- The smallest coordinates of some shapes. -/
def originOf (first : ShapeElement) (others : List ShapeElement) : Origin :=
  ⟨.least first.x (others.map ShapeElement.x), .least first.y (others.map ShapeElement.y)⟩

/-- The canvas on which some shapes fit. -/
def canvasFor (o : Origin) (first : ShapeElement) (others : List ShapeElement) :
    Except ArithmeticError Canvas := do
  let right := Number.greatest (← first.right) (← others.mapM ShapeElement.right)
  let bottom := Number.greatest (← first.bottom) (← others.mapM ShapeElement.bottom)
  let columns ← cellOf right unitsPerColumn o.x
  let rows ← cellOf bottom unitsPerRow o.y
  return .empty (columns + padding + 2) (rows + padding + 2)

/-- The sketch of some shapes and connectors. -/
def sketchOf [Text.Measure] (ascii : Bool) (first : ShapeElement) (others : List ShapeElement)
    (connectors : List ConnectorElement) : Except PreviewError Sketch := do
  let o := originOf first others
  let canvas ← (canvasFor o first others).mapError .arithmetic
  let shapes ← (first :: others).foldlM (Sketch.addShape ascii o) ⟨canvas, []⟩
  connectors.foldlM (Sketch.addConnector ascii o) shapes

/-- The preview of elements in a named style, plain or marked; without shapes it is empty. -/
def preview [Text.Measure] (elements : List Element) (style : String) (marked : Bool) :
    Except PreviewError String :=
  match elements.filterMap Element.shape? with
  | [] => .ok ""
  | first :: others => do
    let s ← sketchOf (BoxGlyphs.isAsciiName style) first others
      (elements.filterMap Element.connector?)
    return s.canvas.picture marked

end Flowchart
