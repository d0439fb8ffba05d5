import Flowchart.Layout.Level
import Flowchart.Layout.Settings

/-! # Placement of nodes

Every level is a row.  Its nodes stand one column step apart, and the row is centred on the canvas
as long as that keeps the left margin. -/

namespace Flowchart

structure Point where
  x : Number
  y : Number
deriving DecidableEq, Repr

/-- Points agree when their coordinates do. -/
def Point.agrees (p q : Point) : Bool := p.x.agrees q.x && p.y.agrees q.y

/-- Points of ids. -/
abbrev Positions := List (String × Point)

def Positions.of? (positions : Positions) (id : String) : Option Point := positions.lookup id

namespace Settings

/-- The left end of a row of `count` nodes. -/
def rowStart (s : Settings) (count : Nat) (step : Number) : Except ArithmeticError Number := do
  let width ← Number.mul (.int count) step
  let free ← s.canvasWidth.sub width
  return s.minMargin.max (← free.half)

/-- The corner of the node at an index of a row. -/
def place (s : Settings) (level index count : Nat) : Except ArithmeticError Point := do
  let step ← s.columnStep
  let start ← s.rowStart count step
  let x ← start.add (← Number.mul (.int index) step)
  let drop ← Number.mul (.int level) s.levelHeight
  let y ← drop.add s.topMargin
  return ⟨x, y⟩

/-- The corners of the nodes of a row. -/
def placeRow (s : Settings) (level : Nat) (row : List String) :
    Except ArithmeticError Positions :=
  row.zipIdx.mapM fun (id, index) => do return (id, ← s.place level index row.length)

/-- The corners of the nodes of all rows. -/
def placeRows (s : Settings) (rows : List (List String)) : Except ArithmeticError Positions :=
  List.flatten <$> rows.zipIdx.mapM fun (row, level) => s.placeRow level row

end Settings

/-- The corners of the nodes that the root of a diagram reaches. -/
def Diagram.positions (d : Diagram) (s : Settings) : Except ArithmeticError Positions :=
  s.placeRows d.levels.rows

end Flowchart
