import Flowchart.Json
import Flowchart.Layout.Placement

/-! # Elements of a drawing

A drawing is a list of elements: shapes with a corner and a size, and connectors with a start and
an end.  Every element carries two random numbers, its seed and its version nonce; two elements
agree when everything else does (`Element.agrees`).  In listings and requests a JSON object stands
for an element, its record (`Element.record`). -/

namespace Flowchart

inductive ElementKind
  | rectangle
  | diamond
  | ellipse
  | arrow
deriving DecidableEq, Repr

def ElementKind.name : ElementKind → String
  | rectangle => "rectangle"
  | diamond => "diamond"
  | ellipse => "ellipse"
  | arrow => "arrow"

/-- How an element is painted. -/
structure Style where
  strokeColor : String
  backgroundColor : String
  fillStyle : String
  strokeWidth : Number
  roughness : Number
  opacity : Number
  roundness : Option String
deriving DecidableEq, Repr

namespace Style

/-- The style of shapes with straight corners. -/
def standard : Style where
  strokeColor := "#1f2937"
  backgroundColor := "#dbeafe"
  fillStyle := "hachure"
  strokeWidth := 2
  roughness := 1
  opacity := 100
  roundness := none

/-- The style of a node's shape. -/
def ofShape : Shape → Style
  | .rounded => { standard with roundness := some "round" }
  | _ => standard

def ofConnector : Style := { standard with backgroundColor := "transparent" }

/-- Corners are rounded when the roundness has a name. -/
def isRounded (s : Style) : Bool :=
  match s.roundness with
  | none => false
  | some name => name != ""

/-- Styles agree when all that they set does. -/
def agrees (s t : Style) : Bool :=
  s.strokeColor == t.strokeColor && s.backgroundColor == t.backgroundColor &&
  s.fillStyle == t.fillStyle && s.strokeWidth.agrees t.strokeWidth &&
  s.roughness.agrees t.roughness && s.opacity.agrees t.opacity && s.roundness == t.roundness

end Style

/-- A shape, from its upper left corner. -/
structure ShapeElement where
  id : String
  kind : ElementKind
  x : Number
  y : Number
  width : Number
  height : Number
  text : String
  style : Style
  seed : Int
  nonce : Int
deriving DecidableEq, Repr

/-- A connector between two points. -/
structure ConnectorElement where
  id : String
  start : Point
  stop : Point
  text : Option String
  style : Style
  startArrowhead : Option String
  endArrowhead : Option String
  seed : Int
  nonce : Int
deriving DecidableEq, Repr

inductive Element
  | shape (s : ShapeElement)
  | connector (c : ConnectorElement)
deriving DecidableEq, Repr

namespace ShapeElement

/-- The right end. -/
def right (s : ShapeElement) : Except ArithmeticError Number := s.x.add s.width

def bottom (s : ShapeElement) : Except ArithmeticError Number := s.y.add s.height

def center (s : ShapeElement) : Except ArithmeticError Point := do
  return ⟨← s.x.add (← s.width.half), ← s.y.add (← s.height.half)⟩

/-- Equality of shapes apart from seed and nonce. -/
def agrees (s t : ShapeElement) : Bool :=
  s.id == t.id && s.kind == t.kind && s.x.agrees t.x && s.y.agrees t.y && s.width.agrees t.width &&
  s.height.agrees t.height && s.text == t.text && s.style.agrees t.style

end ShapeElement

namespace ConnectorElement

/-- The way from start to end along x. -/
def width (c : ConnectorElement) : Except ArithmeticError Number := c.stop.x.sub c.start.x

/-- The way from start to end along y. -/
def height (c : ConnectorElement) : Except ArithmeticError Number := c.stop.y.sub c.start.y

/-- Equality of connectors apart from seed and nonce. -/
def agrees (c d : ConnectorElement) : Bool :=
  c.id == d.id && c.start.agrees d.start && c.stop.agrees d.stop && c.text == d.text &&
  c.style.agrees d.style && c.startArrowhead == d.startArrowhead && c.endArrowhead == d.endArrowhead

end ConnectorElement

namespace Element

def id : Element → String
  | shape s => s.id
  | connector c => c.id

def kind : Element → ElementKind
  | shape s => s.kind
  | connector _ => .arrow

/-- The corner of a shape or the start of a connector. -/
def origin : Element → Point
  | shape s => ⟨s.x, s.y⟩
  | connector c => c.start

/-- The text of an element, empty if it has none. -/
def text : Element → String
  | shape s => s.text
  | connector c => c.text.getD ""

def shape? : Element → Option ShapeElement
  | shape s => some s
  | connector _ => none

def connector? : Element → Option ConnectorElement
  | shape _ => none
  | connector c => some c

/-- An element with other random numbers. -/
def withSeeds (seed nonce : Int) : Element → Element
  | shape s => shape { s with seed, nonce }
  | connector c => connector { c with seed, nonce }

def seeds : Element → Int × Int
  | shape s => (s.seed, s.nonce)
  | connector c => (c.seed, c.nonce)

/-- Equality of elements apart from seed and nonce; a shape never agrees with a connector. -/
def agrees : Element → Element → Bool
  | shape s, shape t => s.agrees t
  | connector c, connector d => c.agrees d
  | _, _ => false

@[simp] theorem seeds_withSeeds (e : Element) (seed nonce : Int) :
    (e.withSeeds seed nonce).seeds = (seed, nonce) := by cases e <;> rfl

@[simp] theorem id_withSeeds (e : Element) (seed nonce : Int) :
    (e.withSeeds seed nonce).id = e.id := by cases e <;> rfl

end Element

/-! ### Records -/

def Style.members (s : Style) : List (String × Json) :=
  [("strokeColor", .string s.strokeColor), ("backgroundColor", .string s.backgroundColor),
   ("fillStyle", .string s.fillStyle), ("strokeWidth", .number s.strokeWidth),
   ("roughness", .number s.roughness), ("opacity", .number s.opacity),
   ("roundness", if s.isRounded then .object [("type", .ofText? s.roundness)] else .null)]

/-- The members for the random numbers; a record is never that of a deleted element. -/
def Element.seedMembers (seed nonce : Int) : List (String × Json) :=
  [("seed", .ofInt seed), ("versionNonce", .ofInt nonce), ("isDeleted", .bool false)]

/-- The members for identity, place and size. -/
def Element.frameMembers (id : String) (kind : ElementKind) (x y width height : Number) :
    List (String × Json) :=
  [("id", .string id), ("type", .string kind.name), ("x", .number x), ("y", .number y),
   ("width", .number width), ("height", .number height)]

def ShapeElement.record (s : ShapeElement) : Json :=
  .object (Element.frameMembers s.id s.kind s.x s.y s.width s.height ++
    [("text", .string s.text)] ++
    s.style.members ++ Element.seedMembers s.seed s.nonce)

/-- The record of a connector; its points are relative to its start, and it has a text only if that
is not empty. -/
def ConnectorElement.record (c : ConnectorElement) : Except ArithmeticError Json := do
  let width ← c.width
  let height ← c.height
  let points : Json := .array [.array [.ofInt 0, .ofInt 0], .array [.number width, .number height]]
  let text := match c.text with
    | none => []
    | some text => if text = "" then [] else [("text", .string text)]
  return .object (Element.frameMembers c.id .arrow c.start.x c.start.y width height ++
    [("points", points)] ++ text ++ c.style.members ++
    [("startArrowhead", .ofText? c.startArrowhead), ("endArrowhead", .ofText? c.endArrowhead),
     ("startBinding", .null), ("endBinding", .null)] ++ Element.seedMembers c.seed c.nonce)

def Element.record : Element → Except ArithmeticError Json
  | shape s => .ok s.record
  | connector c => c.record

end Flowchart
