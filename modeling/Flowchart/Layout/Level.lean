import Flowchart.Diagram.Basic

/-! # Levels of nodes

The level of an id is its distance from the root: ids are visited through a queue, each at the
level at which it is first taken from it.  An id that no path from the root reaches has no level.

`Levels.visit` ends because an edge is dropped once its source has been visited: every step takes
an entry from the queue, and a visit moves edges of the rest into it, at most one entry each. -/

namespace Flowchart

/-- Ids with their levels, in the order in which they were visited. -/
abbrev Levels := List (String × Nat)

namespace Levels

def of? (levels : Levels) (id : String) : Option Nat := levels.lookup id

/-- An id has a level. -/
def has (levels : Levels) (id : String) : Bool := (levels.of? id).isSome

/-- The ids with a level, in the order of visits. -/
def ids (levels : Levels) : List String := levels.map Prod.fst

/-- The ends of the edges that leave an id, in the order of the edges. -/
def targets (edges : List Edge) (id : String) : List String :=
  (edges.filter fun e => e.source == id).map Edge.target

/-- The edges that do not leave an id. -/
def others (edges : List Edge) (id : String) : List Edge := edges.filter fun e => e.source != id

theorem length_targets_add_length_others (edges : List Edge) (id : String) :
    (targets edges id).length + (others edges id).length = edges.length := by
  induction edges with
  | nil => rfl
  | cons e rest ih =>
    by_cases h : e.source = id <;> simp [targets, others, h] at ih ⊢ <;> omega

/-- The entries that a visit adds to the queue. -/
def successors (levels : Levels) (edges : List Edge) (id : String) (level : Nat) : Levels :=
  ((targets edges id).filter fun target => !levels.has target).map fun target => (target, level + 1)

theorem length_successors_le (levels : Levels) (edges : List Edge) (id : String) (level : Nat) :
    (successors levels edges id level).length ≤ (targets edges id).length := by
  simp only [successors, List.length_map]
  exact List.length_filter_le _ _

/-- Visits the ids of a queue.  `edges` are those whose source has no level yet. -/
def visit (levels : Levels) (edges : List Edge) (queue : Levels) : Levels :=
  match queue with
  | [] => levels
  | (id, level) :: rest =>
    if levels.has id then visit levels edges rest
    else
      let visited := levels ++ [(id, level)]
      visit visited (others edges id) (rest ++ successors visited edges id level)
termination_by queue.length + edges.length
decreasing_by
  · simp
  · have := length_successors_le (levels ++ [(id, level)]) edges id level
    have := length_targets_add_length_others edges id
    simp only [List.length_append, List.length_cons]
    omega

end Levels

/-- The levels of the ids that the root of a diagram reaches. -/
def Diagram.levels (d : Diagram) : Levels :=
  match d.root? with
  | none => []
  | some root => Levels.visit [] d.edges [(root.id, 0)]

namespace Levels

def depth (levels : Levels) : Nat := (levels.map fun entry => entry.2 + 1).foldl max 0

/-- The ids of a level, in the order of visits. -/
def row (levels : Levels) (level : Nat) : List String :=
  (levels.filter fun entry => entry.2 == level).map Prod.fst

/-- The ids level by level. -/
def rows (levels : Levels) : List (List String) := (List.range levels.depth).map levels.row

end Levels

end Flowchart
