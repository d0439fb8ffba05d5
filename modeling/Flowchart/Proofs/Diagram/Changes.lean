import Mathlib.Data.Prod.Lex
import Mathlib.Data.String.Basic
import Flowchart.Proofs.Diagram.Patch
import Flowchart.Proofs.FirstOccurrence
import Flowchart.Proofs.Grammar.Reader

/-! # Patches are exact

A patch lists the differences between two diagrams and nothing else (`Patch.Exact`).  Ids stand in
the order in which they first occur.  Edges are counted: what comes and what goes makes up for the
difference of both counts (`count_excess`), so that no edge does both, and edges stand in the order
of their ranks (`pairwise_excess`).  A change shows two texts, which tell apart whatever looks
different, since no name of a shape holds a bracket (`Node.describe_inj`).

`Patch.exact_between` puts this together and adds when a patch is empty. -/

namespace Flowchart

/-! ### Edges -/

/-- The rank of an edge in a patch: its source, its target and its label, a missing label being as
an empty one. -/
def EdgeKey.rank (k : EdgeKey) : String ×ₗ String ×ₗ String :=
  toLex (k.source, toLex (k.target, k.label.getD ""))

theorem EdgeKey.le_iff_rank_le {k l : EdgeKey} : k.le l = true ↔ k.rank ≤ l.rank := by
  simp only [le, rank, Prod.Lex.toLex_le_toLex, Bool.or_eq_true, Bool.and_eq_true,
    Bool.not_eq_true', decide_eq_true_eq, decide_eq_false_iff_not, beq_iff_eq, not_lt]

/-- Distinct entries, each repeated some number of times. -/
theorem count_flatMap_replicate {α : Type} [DecidableEq α] {l : List α} (hl : l.Nodup) (n : α → Nat)
    (a : α) : (l.flatMap fun b => List.replicate (n b) b).count a = if a ∈ l then n a else 0 := by
  induction l with
  | nil => simp
  | cons b l ih =>
      obtain ⟨hb, hl⟩ := List.nodup_cons.mp hl
      rw [List.flatMap_cons, List.count_append, ih hl, List.count_replicate]
      by_cases hab : b = a
      · subst hab
        simp [hb]
      · simp [hab, Ne.symm hab]

theorem count_excess (keys others : List EdgeKey) (k : EdgeKey) :
    (excess keys others).count k = keys.count k - others.count k := by
  have hperm := sortBy_perm EdgeKey.le keys.eraseDups
  have hmem : k ∈ sortBy EdgeKey.le keys.eraseDups ↔ k ∈ keys := by
    rw [hperm.mem_iff, List.mem_eraseDups]
  rw [excess, count_flatMap_replicate (hperm.nodup_iff.mpr (nodup_eraseDups keys))]
  split
  · rfl
  · next hk => rw [List.count_eq_zero_of_not_mem (hmem.not.mp hk), Nat.zero_sub]

theorem pairwise_excess (keys others : List EdgeKey) :
    (excess keys others).Pairwise fun k l => k.rank ≤ l.rank := by
  have hsorted : (sortBy EdgeKey.le keys.eraseDups).Pairwise fun k l => k.rank ≤ l.rank := by
    refine (pairwise_sortBy (fun k l => ?_) (fun k l m => ?_) _).imp EdgeKey.le_iff_rank_le.mp
    · rw [Bool.or_eq_true, EdgeKey.le_iff_rank_le, EdgeKey.le_iff_rank_le]
      exact le_total _ _
    · rw [EdgeKey.le_iff_rank_le, EdgeKey.le_iff_rank_le, EdgeKey.le_iff_rank_le]
      exact le_trans
  refine List.pairwise_flatMap.mpr ⟨fun k _ => ?_, hsorted.imp fun hle k hk l hl => ?_⟩
  · exact List.pairwise_replicate.mpr (.inr (le_refl _))
  · rwa [List.eq_of_mem_replicate hk, List.eq_of_mem_replicate hl]

/-! ### Nodes -/

theorem Shape.name_inj {s t : Shape} : s.name = t.name ↔ s = t := by
  cases s <;> cases t <;> decide

theorem Shape.bracket_not_mem_name (s : Shape) : '(' ∉ s.name.toList := by
  cases s <;> decide

/-- A description tells the label and the shape: the last bracket that opens parts them. -/
theorem Node.describe_inj {n m : Node} : n.describe = m.describe ↔ n.looks = m.looks := by
  have hchars : ∀ n : Node, n.describe.toList.reverse =
      (')' :: n.shape.name.toList.reverse) ++ '(' :: ' ' :: n.label.toList.reverse := by
    intro n
    simp [describe]
  have hname : ∀ n : Node, ∀ c ∈ ')' :: n.shape.name.toList.reverse, (c != '(') = true := by
    intro n c hc
    rw [bne_iff_ne]
    rintro rfl
    rcases List.mem_cons.mp hc with h | h
    · exact absurd h (by decide)
    · exact n.shape.bracket_not_mem_name (List.mem_reverse.mp h)
  constructor
  · intro h
    have hrev := congrArg (fun s : String => s.toList.reverse) h
    rw [hchars, hchars] at hrev
    obtain ⟨hshape, hlabel⟩ := Grammar.run_append_inj (hname n) (hname m)
      (Grammar.stops_cons.mpr rfl) (Grammar.stops_cons.mpr rfl) hrev
    have hshape : n.shape = m.shape :=
      Shape.name_inj.mp (String.toList_inj.mp (List.reverse_inj.mp (List.cons.inj hshape).2))
    have hlabel : n.label = m.label := by
      simpa [String.toList_inj] using hlabel
    rw [looks, looks, hshape, hlabel]
  · intro h
    obtain ⟨hlabel, hshape⟩ := Prod.mk.inj h
    rw [describe, describe, hlabel, hshape]

namespace Diagram

variable {d d' old new : Diagram} {id : String} {change : NodeChange}

theorem mem_filter_distinctIds :
    id ∈ (d.distinctIds.filter fun id => !d'.distinctIds.contains id) ↔
      id ∈ d.ids ∧ id ∉ d'.ids := by
  simp [distinctIds]

/-- Some of the ids in the order in which they first occur. -/
theorem pairwise_filter_distinctIds (d : Diagram) (p : String → Bool) :
    (d.distinctIds.filter p).Pairwise fun a b => d.ids.idxOf a < d.ids.idxOf b :=
  (pairwise_idxOf_eraseDups d.ids).filter p

theorem change?_eq_some_iff : old.change? new id = some change ↔
    change.id = id ∧ ∃ before after, old.node? id = some before ∧ new.node? id = some after ∧
      before.looks ≠ after.looks ∧ change.before = before.describe ∧
      change.after = after.describe := by
  obtain ⟨changed, before, after⟩ := change
  unfold change?
  cases old.node? id with
  | none => simp
  | some n =>
      cases new.node? id with
      | none => simp
      | some m =>
          simp only [Option.bind_eq_bind, Option.bind_some, Option.ite_none_left_eq_some,
            Option.some.injEq, NodeChange.mk.injEq, Node.looks, ne_eq, Prod.mk.injEq]
          constructor
          · rintro ⟨hne, rfl, rfl, rfl⟩
            exact ⟨rfl, n, m, rfl, rfl, hne, rfl, rfl⟩
          · rintro ⟨rfl, _, _, rfl, rfl, hne, rfl, rfl⟩
            exact ⟨hne, rfl, rfl, rfl⟩

theorem mem_changes : change ∈ old.distinctIds.filterMap (old.change? new) ↔
    ∃ before after, old.node? change.id = some before ∧ new.node? change.id = some after ∧
      before.looks ≠ after.looks ∧ change.before = before.describe ∧
      change.after = after.describe := by
  simp only [List.mem_filterMap, change?_eq_some_iff]
  constructor
  · rintro ⟨id, -, rfl, h⟩
    exact h
  · rintro ⟨before, after, hold, h⟩
    exact ⟨change.id, mem_distinctIds.mpr ⟨before, hold⟩, rfl, before, after, hold, h⟩

theorem pairwise_changes (old new : Diagram) :
    (old.distinctIds.filterMap (old.change? new)).Pairwise
      fun a b => old.ids.idxOf a.id < old.ids.idxOf b.id := by
  refine List.pairwise_filterMap.mpr ((pairwise_idxOf_eraseDups old.ids).imp ?_)
  intro a b hlt change hchange change' hchange'
  rwa [(change?_eq_some_iff.mp hchange).1, (change?_eq_some_iff.mp hchange').1]

end Diagram

/-! ### The whole patch -/

namespace Patch

variable {old new : Diagram}

/-- A patch lists exactly what differs between two diagrams. -/
structure Exact (old new : Diagram) (p : Patch) : Prop where
  mem_addedNodes : ∀ id, id ∈ p.addedNodes ↔ id ∈ new.ids ∧ id ∉ old.ids
  mem_removedNodes : ∀ id, id ∈ p.removedNodes ↔ id ∈ old.ids ∧ id ∉ new.ids
  mem_changedNodes : ∀ change, change ∈ p.changedNodes ↔ ∃ before after,
    old.node? change.id = some before ∧ new.node? change.id = some after ∧
      before.looks ≠ after.looks ∧ change.before = before.describe ∧
      change.after = after.describe
  before_ne_after : ∀ change ∈ p.changedNodes, change.before ≠ change.after
  addedNodes_inOrder : p.addedNodes.Pairwise fun a b => new.ids.idxOf a < new.ids.idxOf b
  removedNodes_inOrder : p.removedNodes.Pairwise fun a b => old.ids.idxOf a < old.ids.idxOf b
  changedNodes_inOrder :
    p.changedNodes.Pairwise fun a b => old.ids.idxOf a.id < old.ids.idxOf b.id
  balance : ∀ k, new.edgeKeys.count k + p.removedEdges.count k =
    old.edgeKeys.count k + p.addedEdges.count k
  disjoint : ∀ k, ¬ (k ∈ p.addedEdges ∧ k ∈ p.removedEdges)
  addedEdges_sorted : p.addedEdges.Pairwise fun k l => k.rank ≤ l.rank
  removedEdges_sorted : p.removedEdges.Pairwise fun k l => k.rank ≤ l.rank

/-- **Patches are exact.**  The patch between two diagrams lists the ids that only one of them has
and the ids that look different, in the order in which they first occur, and as many copies of each
edge as make up for the difference, sorted and on one side only.  It is empty exactly if all ids
look the same and every edge occurs as often. -/
theorem exact_between (old new : Diagram) : (between old new).Exact old new ∧
    ((between old new).hasChanges = false ↔
      (∀ id, (old.node? id).map Node.looks = (new.node? id).map Node.looks) ∧
        old.edgeKeys.Perm new.edgeKeys) := by
  refine ⟨?_, by rw [hasChanges_between_eq_false_iff, List.perm_iff_count]⟩
  exact {
    mem_addedNodes := fun id => Diagram.mem_filter_distinctIds
    mem_removedNodes := fun id => Diagram.mem_filter_distinctIds
    mem_changedNodes := fun change => Diagram.mem_changes
    before_ne_after := by
      intro change hchange
      obtain ⟨before, after, -, -, hne, hbefore, hafter⟩ := Diagram.mem_changes.mp hchange
      rw [hbefore, hafter]
      exact Node.describe_inj.not.mpr hne
    addedNodes_inOrder := new.pairwise_filter_distinctIds _
    removedNodes_inOrder := old.pairwise_filter_distinctIds _
    changedNodes_inOrder := Diagram.pairwise_changes old new
    balance := by
      intro k
      simp only [between, count_excess]
      omega
    disjoint := by
      rintro k ⟨hadded, hremoved⟩
      rw [between, ← List.count_pos_iff, count_excess] at hadded hremoved
      omega
    addedEdges_sorted := pairwise_excess _ _
    removedEdges_sorted := pairwise_excess _ _ }

end Patch

end Flowchart
