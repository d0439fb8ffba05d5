import Flowchart.Grammar.Edge

/-! # Mentions of nodes

A line mentions the nodes that it declares and the two ends of its edge.  An end that is declared
at its own column is mentioned once, by the declaration.  Mentions are taken in the order of their
columns; lines that start with a directive word mention nothing. -/

namespace Flowchart.Grammar

/-- The rules for shapes and connectors; neither list is empty. -/
structure Rules where
  shapes : List ShapeRule
  connectors : List ConnectorRule
  shapes_ne_nil : shapes ≠ []
  connectors_ne_nil : connectors ≠ []

namespace Rules

/-- The ways in which lists make no rules. -/
inductive Fault
  | noShapes
  | noConnectors
  | emptyClosing
deriving DecidableEq, Repr

def Fault.message : Fault → String
  | noShapes => "GraphBuilder requires at least one shape rule."
  | noConnectors => "GraphBuilder requires at least one connector rule."
  | emptyClosing => "string index out of range"

def ofLists (shapes : List ShapeRule) (connectors : List ConnectorRule) : Except Fault Rules :=
  if hs : shapes = [] then .error .noShapes
  else if hc : connectors = [] then .error .noConnectors
  else .ok ⟨shapes, connectors, hs, hc⟩

/-- The rules of the language. -/
def standard : Rules :=
  ⟨ShapeRule.standard, ConnectorRule.standard, by simp [ShapeRule.standard, BracketRule.standard],
   by simp [ConnectorRule.standard]⟩

end Rules

/-- A mention of a node at a column, with the label and the shape that it declares, if any. -/
structure Mention where
  column : Nat
  id : String
  declared : Option (String × Shape)
deriving DecidableEq, Repr

def Declaration.mention (d : Declaration) : Mention := ⟨d.column, d.id, some (d.label, d.shape)⟩

/-- The first words that keep a line from being read. -/
def directives : List String :=
  ["subgraph", "end", "classDef", "class", "style", "linkStyle", "click", "direction"]

/-- A line is a directive if its first word is one. -/
def isDirective (line : List Char) : Bool :=
  directives.contains (String.ofList (Text.firstWord line))

/-- The part of a line that is read: without semicolons at the end, and trimmed. -/
def lineContent (line : String) : List Char :=
  Text.trim (Text.dropEndWhile (· == ';') line.toList)

/-- What a line says: its mentions in the order of their columns, and its edge. -/
structure Statement where
  mentions : List Mention
  edge : Option Edge
deriving DecidableEq, Repr

namespace Statement

/-- The mentions of the two ends of an edge. -/
def endpoints (r : EdgeReading) : List Mention :=
  [⟨0, String.ofList r.source, none⟩, ⟨r.targetColumn, String.ofList r.target, none⟩]

/-- What the content of a line says, directive or not. -/
def ofContent (rules : Rules) (content : List Char) : Statement :=
  let reading := readEdge? rules.connectors content
  let declared := declarations rules.shapes (reading.bind EdgeReading.labelSpan) content
  let ends := (reading.map endpoints).getD []
  let undeclared := ends.filter fun m => declared.all fun d => d.column != m.column
  ⟨sortBy (fun m n => m.column ≤ n.column) (declared.map Declaration.mention ++ undeclared),
   reading.map (EdgeReading.edge rules.connectors)⟩

/-- What a line says. -/
def ofLine (rules : Rules) (line : String) : Statement :=
  let content := lineContent line
  if isDirective content then ⟨[], none⟩ else ofContent rules content

end Statement

end Flowchart.Grammar
