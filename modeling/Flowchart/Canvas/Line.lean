/-! # Lines of cells

The cells of a straight line between two cells.  A step moves along the longer extent, and along the
other one when the accumulated error says so; the line ends at its end cell after as many steps as
the longer extent has. -/

namespace Flowchart

abbrev Place := Int × Int

/-- The data of a line that its steps share: the end, the two extents, the second one negated, and
the two directions. -/
structure LineCourse where
  stop : Place
  dx : Int
  dy : Int
  sx : Int
  sy : Int

namespace LineCourse

/-- The course from one place to another. -/
def between (start stop : Place) : LineCourse where
  stop := stop
  dx := (stop.1 - start.1).natAbs
  dy := -(stop.2 - start.2).natAbs
  sx := if start.1 < stop.1 then 1 else -1
  sy := if start.2 < stop.2 then 1 else -1

/-- The number of steps, that of the longer extent. -/
def steps (l : LineCourse) : Nat := max l.dx.natAbs l.dy.natAbs

/-- The place and the error after a step. -/
def step (l : LineCourse) (here : Place) (err : Int) : Place × Int :=
  let alongX := l.dy ≤ 2 * err
  let alongY := 2 * err ≤ l.dx
  ((if alongX then here.1 + l.sx else here.1, if alongY then here.2 + l.sy else here.2),
   err + (if alongX then l.dy else 0) + (if alongY then l.dx else 0))

/-- The cells from a place on, for a number of steps at most. -/
def cellsFrom (l : LineCourse) : Nat → Place → Int → List Place
  | 0, here, _ => [here]
  | steps + 1, here, err =>
    if here = l.stop then [here]
    else here :: l.cellsFrom steps (l.step here err).1 (l.step here err).2

end LineCourse

/-- The cells of the line between two places, ends included. -/
def lineCells (start stop : Place) : List Place :=
  let l := LineCourse.between start stop
  l.cellsFrom l.steps start (l.dx + l.dy)

end Flowchart
