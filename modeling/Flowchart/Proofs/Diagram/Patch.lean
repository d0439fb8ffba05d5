import Mathlib.Data.List.Nodup
import Flowchart.Diagram.Patch

/-! # Patches without changes

A patch looks at a diagram through the last node of each id, of which it takes the label and the
shape (`Node.looks`), and through the number of times that each edge occurs.  It is empty if and
only if both diagrams look the same (`Patch.hasChanges_between_eq_false_iff`); the order of nodes
and edges is not seen (`Patch.hasChanges_between_of_perm`). -/

namespace Flowchart

/-- What a patch compares of a node. -/
def Node.looks (n : Node) : String × Shape := (n.label, n.shape)

/-! ### Edges -/

theorem excess_eq_nil_iff {keys others : List EdgeKey} :
    excess keys others = [] ↔ ∀ k, keys.count k ≤ others.count k := by
  rw [excess, List.flatMap_eq_nil_iff]
  refine forall_congr' fun k => ?_
  rw [List.replicate_eq_nil_iff, Nat.sub_eq_zero_iff_le, (sortBy_perm _ _).mem_iff,
    List.mem_eraseDups]
  refine ⟨fun h => ?_, fun h _ => h⟩
  by_cases hk : k ∈ keys
  · exact h hk
  · rw [List.count_eq_zero_of_not_mem hk]
    exact Nat.zero_le _

/-! ### Nodes -/

namespace Diagram

variable {d old new : Diagram} {id : String} {n : Node}

theorem mem_distinctIds : id ∈ d.distinctIds ↔ ∃ n, d.node? id = some n := by
  rw [distinctIds, List.mem_eraseDups, ← node?_isSome_iff, Option.isSome_iff_exists]

theorem change?_eq_none_iff : old.change? new id = none ↔
    ∀ before ∈ old.node? id, ∀ after ∈ new.node? id, before.looks = after.looks := by
  unfold change?
  cases hold : old.node? id with
  | none => simp
  | some before =>
      cases hnew : new.node? id with
      | none => simp
      | some after => simp [Node.looks]

/-- If no id occurs twice, the node of an id is the one that has it. -/
theorem node?_eq_some_iff (hnodup : d.ids.Nodup) :
    d.node? id = some n ↔ n ∈ d.nodes ∧ n.id = id := by
  constructor
  · intro h
    exact ⟨List.mem_reverse.mp (List.mem_of_find?_eq_some h), by simpa using List.find?_some h⟩
  · rintro ⟨hmem, rfl⟩
    obtain ⟨found, hfound⟩ := Option.isSome_iff_exists.mp
      ((d.node?_isSome_iff n.id).mpr (List.mem_map_of_mem hmem))
    have hid : found.id = n.id := by simpa using List.find?_some hfound
    have hfoundMem := List.mem_reverse.mp (List.mem_of_find?_eq_some hfound)
    rw [hfound, List.inj_on_of_nodup_map hnodup hfoundMem hmem hid]

end Diagram

/-! ### The whole patch -/

namespace Patch

variable {old new : Diagram}

theorem hasChanges_eq_false_iff (p : Patch) : p.hasChanges = false ↔
    p.addedNodes = [] ∧ p.removedNodes = [] ∧ p.changedNodes = [] ∧ p.addedEdges = [] ∧
      p.removedEdges = [] := by
  simp [hasChanges, and_assoc]

/-- A patch is empty if the same ids look the same and the same edges occur as often. -/
theorem hasChanges_between_eq_false_iff : (between old new).hasChanges = false ↔
    (∀ id, (old.node? id).map Node.looks = (new.node? id).map Node.looks) ∧
      ∀ k, old.edgeKeys.count k = new.edgeKeys.count k := by
  have hids : ∀ d d' : Diagram, (d.distinctIds.filter fun id => !d'.distinctIds.contains id) = [] ↔
      ∀ id, (∃ n, d.node? id = some n) → ∃ n, d'.node? id = some n := by
    intro d d'
    simp [List.filter_eq_nil_iff, Diagram.mem_distinctIds]
  rw [hasChanges_eq_false_iff, between, hids, hids, List.filterMap_eq_nil_iff, excess_eq_nil_iff,
    excess_eq_nil_iff]
  simp only [Diagram.mem_distinctIds, Diagram.change?_eq_none_iff]
  constructor
  · rintro ⟨hadded, hremoved, hchanged, hmore, hless⟩
    refine ⟨fun id => ?_, fun k => Nat.le_antisymm (hless k) (hmore k)⟩
    cases hold : old.node? id with
    | none =>
        cases hnew : new.node? id with
        | none => rfl
        | some after =>
            obtain ⟨before, hbefore⟩ := hadded id ⟨after, hnew⟩
            rw [hold] at hbefore
            cases hbefore
    | some before =>
        obtain ⟨after, hnew⟩ := hremoved id ⟨before, hold⟩
        rw [hnew, Option.map_some, Option.map_some,
          hchanged id ⟨before, hold⟩ before hold after hnew]
  · rintro ⟨hnodes, hedges⟩
    have hboth : ∀ id, (∃ n, old.node? id = some n) ↔ ∃ n, new.node? id = some n := by
      intro id
      rw [← Option.isSome_iff_exists, ← Option.isSome_iff_exists, ← Option.isSome_map, hnodes,
        Option.isSome_map]
    refine ⟨fun id => (hboth id).mpr, fun id => (hboth id).mp, fun id _ before hbefore after
      hafter => ?_, fun k => Nat.le_of_eq (hedges k).symm, fun k => Nat.le_of_eq (hedges k)⟩
    have hlooks := hnodes id
    rw [hbefore, hafter, Option.map_some, Option.map_some] at hlooks
    exact Option.some.inj hlooks

theorem hasChanges_between_of_perm (hnodup : old.ids.Nodup) (hnodes : old.nodes.Perm new.nodes)
    (hedges : old.edges.Perm new.edges) : (between old new).hasChanges = false := by
  have hnodup' : new.ids.Nodup := (hnodes.map Node.id).nodup_iff.mp hnodup
  refine hasChanges_between_eq_false_iff.mpr ⟨fun id => ?_, (hedges.map Edge.key).count_eq⟩
  have hnode : old.node? id = new.node? id := by
    ext n
    rw [Diagram.node?_eq_some_iff hnodup, Diagram.node?_eq_some_iff hnodup', hnodes.mem_iff]
  rw [hnode]

end Patch

end Flowchart
