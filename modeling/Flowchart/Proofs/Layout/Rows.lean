import Mathlib.Data.List.Perm.Subperm
import Flowchart.Proofs.Layout.Placed

/-! # The size of a layout

Every id with a level is the root or the end of an edge, so there is at most one id more than there
are edges (`Diagram.length_levels_le`).  A shortest path passes a node of every level below its end,
so there are no more rows than ids (`Diagram.depth_levels_le`), and no row is longer than all of
them. -/

namespace Flowchart

theorem mem_of_lookup_eq_some {α : Type} {entries : List (String × α)} {id : String} {a : α}
    (h : entries.lookup id = some a) : (id, a) ∈ entries := by
  obtain ⟨front, back, rfl, -⟩ := List.lookup_eq_some_iff.mp h
  exact List.mem_append_right front List.mem_cons_self

/-- The end of a shortest path has a node before it that is one level higher. -/
theorem IsDistance.exists_previous {edges : List Edge} {source id : String} {k : Nat}
    (h : IsDistance edges source id (k + 1)) : ∃ v, IsDistance edges source v k := by
  obtain ⟨hpath, hshortest⟩ := h
  cases hpath with
  | @step e k hpath he =>
      refine ⟨e.source, hpath, fun j hj => ?_⟩
      have := hshortest (j + 1) (hj.step he)
      omega

theorem IsDistance.exists_of_le {edges : List Edge} {source id : String} {j k : Nat}
    (h : IsDistance edges source id k) (hle : j ≤ k) : ∃ v, IsDistance edges source v j := by
  induction k generalizing id with
  | zero =>
      obtain rfl : j = 0 := by omega
      exact ⟨id, h⟩
  | succ k ih =>
      rcases Nat.lt_or_eq_of_le hle with hlt | rfl
      · obtain ⟨v, hv⟩ := h.exists_previous
        exact ih hv (by omega)
      · exact ⟨id, h⟩

theorem Path.eq_or_mem_targets {edges : List Edge} {source id : String} {k : Nat}
    (h : Path edges source id k) : id = source ∨ id ∈ edges.map Edge.target := by
  cases h with
  | refl => exact .inl rfl
  | @step e k hpath he => exact .inr (List.mem_map.mpr ⟨e, he, rfl⟩)

namespace Levels

variable {levels : Levels} {id : String} {k n : Nat}

theorem of?_eq_some_of_mem (hnodup : (ids levels).Nodup) (h : (id, k) ∈ levels) :
    of? levels id = some k := by
  induction levels with
  | nil => cases h
  | cons entry levels ih =>
      obtain ⟨hentry, hnodup⟩ := List.nodup_cons.mp hnodup
      rcases List.mem_cons.mp h with rfl | hmem
      · simp [of?]
      · have hid : id ∈ ids levels := List.mem_map.mpr ⟨_, hmem, rfl⟩
        have hne : id ≠ entry.1 := ne_of_mem_of_not_mem hid hentry
        have hrest := ih hnodup hmem
        rw [of?] at hrest ⊢
        rw [List.lookup_cons, beq_false_of_ne hne]
        exact hrest

theorem depth_le (h : ∀ entry ∈ levels, entry.2 < n) : levels.depth ≤ n := by
  have hfold : ∀ (l : List Nat) (start : Nat), start ≤ n → (∀ m ∈ l, m ≤ n) →
      l.foldl max start ≤ n := by
    intro l
    induction l with
    | nil => exact fun start hstart _ => hstart
    | cons m l ih =>
        intro start hstart hl
        obtain ⟨hm, hl⟩ := List.forall_mem_cons.mp hl
        exact ih (max start m) (Nat.max_le.mpr ⟨hstart, hm⟩) hl
  refine hfold _ 0 (Nat.zero_le n) fun m hm => ?_
  obtain ⟨entry, hentry, rfl⟩ := List.mem_map.mp hm
  exact h entry hentry

theorem length_row_le (levels : Levels) (k : Nat) : (levels.row k).length ≤ levels.length := by
  rw [row, List.length_map]
  exact List.length_filter_le _ _

end Levels

namespace Diagram

variable (d : Diagram)

/-- The ids with a level are the root and ends of edges. -/
theorem length_levels_le : d.levels.length ≤ d.edges.length + 1 := by
  cases hroot : d.root? with
  | none => simp [levels, hroot]
  | some root =>
      obtain ⟨left, h⟩ := visiting_levels hroot
      have hsub : d.levels.ids ⊆ root.id :: d.edges.map Edge.target := by
        intro id hid
        obtain ⟨⟨id, k⟩, hmem, rfl⟩ := List.mem_map.mp hid
        have hdistance := h.distance id k (Levels.of?_eq_some_of_mem h.nodup hmem)
        exact List.mem_cons.mpr hdistance.1.eq_or_mem_targets
      have hle := (List.subperm_of_subset h.nodup hsub).length_le
      rwa [Levels.ids, List.length_map, List.length_cons, List.length_map] at hle

/-- No level is left out below the last one. -/
theorem depth_levels_le : d.levels.depth ≤ d.levels.length := by
  refine Levels.depth_le fun ⟨id, k⟩ hmem => ?_
  cases hroot : d.root? with
  | none => simp [levels, hroot] at hmem
  | some root =>
      obtain ⟨left, h⟩ := visiting_levels hroot
      have hdistance := h.distance id k (Levels.of?_eq_some_of_mem h.nodup hmem)
      have hsub : List.range (k + 1) ⊆ d.levels.map Prod.snd := by
        intro j hj
        obtain ⟨v, hv⟩ := hdistance.exists_of_le (Nat.lt_succ_iff.mp (List.mem_range.mp hj))
        have hlevel := (h.of?_eq_some_iff v j).mpr hv
        exact List.mem_map.mpr ⟨(v, j), mem_of_lookup_eq_some hlevel, rfl⟩
      have hle := (List.subperm_of_subset List.nodup_range hsub).length_le
      rw [List.length_range, List.length_map] at hle
      omega

/-- There are no more rows than ends of edges and the root, and no row is longer. -/
theorem length_rows_le : d.levels.rows.length ≤ d.edges.length + 1 := by
  rw [Levels.rows, List.length_map, List.length_range]
  exact Nat.le_trans d.depth_levels_le d.length_levels_le

theorem length_row_le {row : List String} (h : row ∈ d.levels.rows) :
    row.length ≤ d.edges.length + 1 := by
  obtain ⟨k, -, rfl⟩ := List.mem_map.mp h
  exact Nat.le_trans (d.levels.length_row_le k) d.length_levels_le

end Diagram

end Flowchart
