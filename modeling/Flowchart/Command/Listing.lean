import Flowchart.Element.Basic
import Flowchart.Markup.Piece
import Flowchart.Markup.Reader
import Flowchart.Number.Decimal
import Flowchart.Text.Combining

/-! # Tables and panels

Elements are listed in a table with a title, and a preview is shown in a panel.  Columns are as wide
as their widest cell, and all widths are those on a terminal. -/

namespace Flowchart.Command

def repeated (n : Nat) (s : String) : String := String.join (List.replicate n s)

def blanks (n : Nat) : String := repeated n " "

def widest (texts : List String) : Nat := (texts.map Text.terminalWidth).foldl max 0

/-- The half of a free width that stands on the left of a centred text. -/
def leftShare (total : Nat) (s : String) : Nat := (total - Text.terminalWidth s) / 2

/-- A text in the middle of a width, between repetitions of `fill`. -/
def centred (fill : String) (total : Nat) (s : String) : String :=
  let left := leftShare total s
  repeated left fill ++ s ++ repeated (total - Text.terminalWidth s - left) fill

/-! ### Tables -/

/-- The side of a column to which its cells are set. -/
inductive Alignment
  | left
  | right
deriving DecidableEq, Repr

/-- A column with its heading and cells. -/
structure Column where
  heading : String
  alignment : Alignment
  cells : List String

namespace Column

def width (c : Column) : Nat := widest (c.heading :: c.cells)

/-- A cell filled up to the width of its column, with a blank on both sides. -/
def pad (c : Column) (cell : String) : String :=
  let free := blanks (c.width - Text.terminalWidth cell)
  " " ++ (match c.alignment with
    | .left => cell ++ free
    | .right => free ++ cell) ++ " "

end Column

/-- A line across a table: its two ends, what stands between columns, and what fills them. -/
structure Rule where
  first : String
  between : String
  last : String
  fill : String

def Rule.across (r : Rule) (columns : List Column) : String :=
  r.first ++ r.between.intercalate (columns.map fun c => repeated (c.width + 2) r.fill) ++ r.last

/-- A row of cells between bars. -/
def tableRow (bar : String) (cells : List String) : String :=
  bar ++ bar.intercalate cells ++ bar

def topRule : Rule := ⟨"┏", "┳", "┓", "━"⟩

def headRule : Rule := ⟨"┡", "╇", "┩", "━"⟩

def footRule : Rule := ⟨"└", "┴", "┘", "─"⟩

/-- The rows of columns, cell by cell. -/
def tableRows (columns : List Column) (rows : Nat) : List String :=
  (List.range rows).map fun i =>
    tableRow "│" (columns.map fun c => c.pad (c.cells.getD i ""))

/-- The lines of a table with a title, columns and a number of rows. -/
def tableLines (title : String) (columns : List Column) (rows : Nat) : List String :=
  let top := topRule.across columns
  [centred " " (Text.terminalWidth top) title, top,
   tableRow "┃" (columns.map fun c => c.pad c.heading), headRule.across columns] ++
  tableRows columns rows ++ [footRule.across columns]

def cellText (s : String) : Except Markup.Error String := Markup.shownText (Markup.escape s)

/-- The ways in which a listing fails. -/
inductive ListingError
  | markup (e : Markup.Error)
  | arithmetic (e : ArithmeticError)
deriving DecidableEq, Repr

def ListingError.message : ListingError → String
  | markup e => e.message
  | arithmetic e => e.message

def elementTable (elements : List Element) : Except ListingError (List String) := do
  let xs ← (elements.mapM fun (e : Element) => e.origin.x.generalText).mapError .arithmetic
  let ys ← (elements.mapM fun (e : Element) => e.origin.y.generalText).mapError .arithmetic
  let ids ← (elements.mapM fun (e : Element) => cellText e.id).mapError .markup
  let texts ← (elements.mapM fun (e : Element) => cellText e.text).mapError .markup
  return tableLines "Diagram elements"
    [⟨"id", .left, ids⟩, ⟨"type", .left, elements.map fun (e : Element) => e.kind.name⟩,
     ⟨"x", .right, xs⟩, ⟨"y", .right, ys⟩, ⟨"text", .left, texts⟩] elements.length

/-! ### Panels -/

/-- A text cut at line feeds. -/
def feedLines (s : String) : List String := (s.toList.splitOn '\n').map String.ofList

/-- The lines of a panel with a title around a text. -/
def panelLines (title text : String) : List String :=
  let lines := feedLines text
  let shown := " " ++ title ++ " "
  let inner := max (widest lines) (Text.terminalWidth shown)
  let row (line : String) : String :=
    "│ " ++ line ++ blanks (inner - Text.terminalWidth line) ++ " │"
  ["╭─" ++ centred "─" inner shown ++ "─╮"] ++ lines.map row ++
    ["╰" ++ repeated (inner + 2) "─" ++ "╯"]

def previewPanel (marked : String) : Except Markup.Error (List String) :=
  (panelLines "Preview") <$> Markup.shownText marked

end Flowchart.Command
