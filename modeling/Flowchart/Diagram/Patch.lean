import Flowchart.Diagram.Basic
import Flowchart.Sorting

/-! # Patches between diagrams

A patch lists what turns one diagram into another: ids that come and go, ids whose label or shape
differ, and edges with the number of times that they come and go.  Nodes are compared by the last
node of each id, edges by source, target and label; ids keep the order in which they first occur
and edges are sorted. -/

namespace Flowchart

/-- What tells edges apart. -/
structure EdgeKey where
  source : String
  target : String
  label : Option String
deriving DecidableEq, Repr

namespace EdgeKey

/-- Order by source, then target, then label, a missing label being as an empty one. -/
def le (k l : EdgeKey) : Bool :=
  k.source < l.source || (k.source == l.source &&
    (k.target < l.target || (k.target == l.target && !(l.label.getD "" < k.label.getD ""))))

end EdgeKey

def Edge.key (e : Edge) : EdgeKey := ⟨e.source, e.target, e.label⟩

/-- A node whose label or shape differ, with a description of both. -/
structure NodeChange where
  id : String
  before : String
  after : String
deriving DecidableEq, Repr

/-- The differences between two diagrams. -/
structure Patch where
  addedNodes : List String
  removedNodes : List String
  changedNodes : List NodeChange
  addedEdges : List EdgeKey
  removedEdges : List EdgeKey
deriving DecidableEq, Repr

/-- What a change shows of a node. -/
def Node.describe (n : Node) : String := n.label ++ " (" ++ n.shape.name ++ ")"

namespace Diagram

/-- The ids of the nodes, each once, in the order in which they first occur. -/
def distinctIds (d : Diagram) : List String := d.ids.eraseDups

def edgeKeys (d : Diagram) : List EdgeKey := d.edges.map Edge.key

/-- The change of an id from one diagram to another, if both have it and it differs. -/
def change? (old new : Diagram) (id : String) : Option NodeChange := do
  let before ← old.node? id
  let after ← new.node? id
  if before.label = after.label ∧ before.shape = after.shape then none
  else some ⟨id, before.describe, after.describe⟩

end Diagram

/-- The keys that occur more often in the first list than in the second, sorted, each as many times
as it is in excess. -/
def excess (keys others : List EdgeKey) : List EdgeKey :=
  (sortBy EdgeKey.le keys.eraseDups).flatMap fun k =>
    List.replicate (keys.count k - others.count k) k

namespace Patch

/-- The patch from one diagram to another. -/
def between (old new : Diagram) : Patch where
  addedNodes := new.distinctIds.filter fun id => !old.distinctIds.contains id
  removedNodes := old.distinctIds.filter fun id => !new.distinctIds.contains id
  changedNodes := old.distinctIds.filterMap (old.change? new)
  addedEdges := excess new.edgeKeys old.edgeKeys
  removedEdges := excess old.edgeKeys new.edgeKeys

/-- A patch that changes nothing is empty. -/
def hasChanges (p : Patch) : Bool :=
  !(p.addedNodes.isEmpty && p.removedNodes.isEmpty && p.changedNodes.isEmpty &&
    p.addedEdges.isEmpty && p.removedEdges.isEmpty)

end Patch

end Flowchart
