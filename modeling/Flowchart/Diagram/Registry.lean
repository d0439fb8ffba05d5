import Flowchart.Diagram.Source
import Flowchart.Grammar.Mention

/-! # Building a diagram

The registry collects nodes and edges statement by statement.  A node stands where it is first
mentioned, and its first declaration gives it a label and a shape for good; an empty label is
replaced by the id.  `Diagram.ofText` is the whole way from a text to its diagram. -/

namespace Flowchart

open Grammar

/-- The node of an id with what a declaration says of it. -/
def Node.ofDeclaration (id label : String) (shape : Shape) : Node :=
  ⟨id, if label = "" then id else label, shape, true⟩

/-- The nodes and edges collected so far. -/
structure Registry where
  nodes : List Node
  edges : List Edge
deriving DecidableEq, Repr

namespace Registry

/-- The registry of no statements. -/
def empty : Registry := ⟨[], []⟩

/-- Replaces the node with the id of `n`, if it is not declared yet. -/
def declare (n : Node) (nodes : List Node) : List Node :=
  nodes.map fun old => if old.id = n.id ∧ old.declared = false then n else old

/-- Takes up a mention. -/
def register (nodes : List Node) (m : Mention) : List Node :=
  let known := nodes.any fun n => n.id == m.id
  match m.declared with
  | none => if known then nodes else nodes ++ [.implicit m.id]
  | some (label, shape) =>
    let n := Node.ofDeclaration m.id label shape
    if known then declare n nodes else nodes ++ [n]

/-- Takes up a statement. -/
def add (r : Registry) (s : Statement) : Registry :=
  ⟨s.mentions.foldl register r.nodes, r.edges ++ s.edge.toList⟩

def ofLines (rules : Rules) (lines : List String) : Registry :=
  (lines.map (Statement.ofLine rules)).foldl add empty

end Registry

namespace Diagram

/-- The diagram of a source; it has a node at least. -/
def ofSource (rules : Rules) (source : Source) : Except ParseError Diagram :=
  let registry := Registry.ofLines rules source.lines
  if registry.nodes.isEmpty then .error .noNodes
  else .ok ⟨source.kind, source.direction, registry.nodes, registry.edges⟩

/-- The diagram of a text, read with some rules. -/
def ofTextWith (rules : Rules) (text : String) : Except ParseError Diagram := do
  ofSource rules (← Source.ofText text)

/-- The diagram of a text. -/
def ofText (text : String) : Except ParseError Diagram := ofTextWith .standard text

end Diagram

end Flowchart
