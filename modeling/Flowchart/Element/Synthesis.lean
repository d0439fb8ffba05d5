import Flowchart.Diagram.Registry
import Flowchart.Element.Basic
import Flowchart.Random.Generator

/-! # Elements of a diagram

Every node becomes a shape at its position, or at the fallback point if it has none.  Every edge
whose two ends have positions becomes a connector between the centres of their shapes; the other
edges are dropped.  What the elements are is settled first (`outline`), and then every element takes
two draws from a generator, in order (`stampSeeds`). -/

namespace Flowchart

/-- The kind of element that draws a shape. -/
def Shape.elementKind : Shape → ElementKind
  | diamond => .diamond
  | ellipse => .ellipse
  | _ => .rectangle

/-- The shape of a node, still without random numbers. -/
def Node.element (n : Node) (s : Settings) (positions : Positions) : ShapeElement :=
  let corner := (positions.of? n.id).getD ⟨s.fallbackX, s.fallbackY⟩
  { id := n.id, kind := n.shape.elementKind, x := corner.x, y := corner.y,
    width := s.nodeWidth, height := s.nodeHeight, text := n.label,
    style := .ofShape n.shape, seed := 0, nonce := 0 }

/-- The centre of the shape at a corner. -/
def Settings.centerAt (s : Settings) (corner : Point) : Except ArithmeticError Point := do
  let halfWidth ← s.nodeWidth.half
  let halfHeight ← s.nodeHeight.half
  return ⟨← corner.x.add halfWidth, ← corner.y.add halfHeight⟩

/-- The connector of an edge between two corners, still without random numbers; an empty label
counts as none. -/
def Edge.element (e : Edge) (s : Settings) (id : String) (start stop : Point) :
    Except ArithmeticError ConnectorElement := do
  return { id, start := ← s.centerAt start, stop := ← s.centerAt stop,
           text := e.label.filter (· != ""), style := .ofConnector, startArrowhead := none,
           endArrowhead := some "arrow", seed := 0, nonce := 0 }

/-- The id that connectors between two nodes start from. -/
def Edge.baseId (e : Edge) : String := "arrow-" ++ e.source ++ "-" ++ e.target

/-- The id of the connector that `repeats` earlier ones share their base with. -/
def connectorId (base : String) (repeats : Nat) : String :=
  if repeats = 0 then base else base ++ "-" ++ toString repeats

/-- The connectors of edges.  `earlier` holds the bases of the connectors so far. -/
def connectors (s : Settings) (positions : Positions) (earlier : List String) :
    List Edge → Except ArithmeticError (List ConnectorElement)
  | [] => .ok []
  | e :: rest =>
    match positions.of? e.source, positions.of? e.target with
    | some start, some stop => do
      let id := connectorId e.baseId (earlier.count e.baseId)
      let c ← e.element s id start stop
      return c :: (← connectors s positions (e.baseId :: earlier) rest)
    | _, _ => connectors s positions earlier rest

/-- The elements of nodes and edges, still without random numbers: first the shapes in the order of
the nodes, then the connectors in the order of the edges. -/
def outline (s : Settings) (nodes : List Node) (edges : List Edge) (positions : Positions) :
    Except ArithmeticError (List Element) := do
  let arrows ← connectors s positions [] edges
  return (nodes.map fun n => .shape (n.element s positions)) ++ arrows.map .connector

/-- Gives every element its seed and its nonce, drawn in this order. -/
def stampSeeds {σ : Type} (g : Generator σ) : List Element → σ → List Element × σ
  | [], state => ([], state)
  | e :: rest, state =>
    let (seed, state) := g.drawSeed state
    let (nonce, state) := g.drawSeed state
    let (stamped, state) := stampSeeds g rest state
    (e.withSeeds seed nonce :: stamped, state)

/-- The elements of nodes and edges at positions, and the state of the generator after them. -/
def synthesize {σ : Type} (g : Generator σ) (state : σ) (s : Settings) (nodes : List Node)
    (edges : List Edge) (positions : Positions) :
    Except ArithmeticError (List Element × σ) := do
  return stampSeeds g (← outline s nodes edges positions) state

/-! ### From text to elements -/

/-- The ways in which a text gives no elements. -/
inductive ConversionError
  | parse (e : ParseError)
  | arithmetic (e : ArithmeticError)
deriving DecidableEq, Repr

def ConversionError.message : ConversionError → String
  | parse e => e.message
  | arithmetic e => e.message

/-- The elements of a diagram, laid out. -/
def Diagram.elements {σ : Type} (d : Diagram) (s : Settings) (g : Generator σ) (state : σ) :
    Except ArithmeticError (List Element × σ) := do
  synthesize g state s d.nodes d.edges (← d.positions s)

/-- The elements of a text. -/
def convert {σ : Type} (text : String) (s : Settings) (g : Generator σ) (state : σ) :
    Except ConversionError (List Element × σ) := do
  let d ← (Diagram.ofText text).mapError .parse
  (d.elements s g state).mapError .arithmetic

end Flowchart
