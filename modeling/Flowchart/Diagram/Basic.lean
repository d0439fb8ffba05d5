/-! # Diagrams

A diagram is a list of nodes and a list of edges, with the kind that its header names and the
direction it asks for.  Nodes stand in the order in which a text first mentions them; the first one
is the root.  An id that occurs more than once belongs to the last node with it
(`Diagram.node?`). -/

namespace Flowchart

/-- The kinds of diagram that a header can name. -/
inductive DiagramKind
  | flowchart
  | sequence
  | classes
  | state
  | gantt
  | unknown
deriving DecidableEq, Repr

def DiagramKind.name : DiagramKind → String
  | flowchart => "flowchart"
  | sequence => "sequence"
  | classes => "class"
  | state => "state"
  | gantt => "gantt"
  | unknown => "unknown"

/-- The directions in which a flowchart can run. -/
inductive Direction
  | topBottom
  | bottomTop
  | leftRight
  | rightLeft
deriving DecidableEq, Repr

def Direction.name : Direction → String
  | topBottom => "TB"
  | bottomTop => "BT"
  | leftRight => "LR"
  | rightLeft => "RL"

/-- The shapes of nodes; a node that no declaration gives a shape is plain. -/
inductive Shape
  | rectangle
  | diamond
  | ellipse
  | rounded
  | plain
deriving DecidableEq, Repr

def Shape.name : Shape → String
  | rectangle => "rectangle"
  | diamond => "diamond"
  | ellipse => "ellipse"
  | rounded => "rounded"
  | plain => "plain"

/-- The lines that connect nodes. -/
inductive Connector
  | arrow
  | thickArrow
  | thick
  | dotted
  | plain
deriving DecidableEq, Repr

def Connector.name : Connector → String
  | arrow => "arrow"
  | thickArrow => "thick_arrow"
  | thick => "thick"
  | dotted => "dotted"
  | plain => "plain"

/-- A node, its label and shape, and whether a declaration gave them. -/
structure Node where
  id : String
  label : String
  shape : Shape
  declared : Bool
deriving DecidableEq, Repr

/-- The node of an id that nothing declares: the id is its label. -/
def Node.implicit (id : String) : Node := ⟨id, id, .plain, false⟩

/-- A directed edge between two ids. -/
structure Edge where
  source : String
  target : String
  label : Option String
  connector : Connector
deriving DecidableEq, Repr

/-- A diagram. -/
structure Diagram where
  kind : DiagramKind
  direction : Direction
  nodes : List Node
  edges : List Edge
deriving DecidableEq, Repr

namespace Diagram

/-- The first node, from which levels are counted. -/
def root? (d : Diagram) : Option Node := d.nodes.head?

def ids (d : Diagram) : List String := d.nodes.map Node.id

/-- The last node with an id. -/
def node? (d : Diagram) (id : String) : Option Node := d.nodes.reverse.find? fun n => n.id == id

theorem node?_isSome_iff (d : Diagram) (id : String) : (d.node? id).isSome ↔ id ∈ d.ids := by
  simp [node?, ids, List.find?_isSome]

end Diagram

end Flowchart
