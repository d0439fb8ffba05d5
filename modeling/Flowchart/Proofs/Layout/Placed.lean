import Flowchart.Layout.Placement
import Flowchart.Proofs.Fallible
import Flowchart.Proofs.Layout.Distance

/-! # Which nodes are placed

The rows hold every id with a level, once for each level (`Levels.mem_flatten_rows`), and placing
rows gives a point to each of their ids in order (`Settings.map_fst_of_placeRows`).  So the ids with
a point are those that the root reaches (`Diagram.isSome_of?_iff_reaches`). -/

namespace Flowchart

/-! ### Rows -/

namespace Levels

theorem lt_depth_of_mem {levels : Levels} {id : String} {k : Nat} (h : (id, k) ∈ levels) :
    k < levels.depth := by
  have hle : ∀ (l : List Nat) (start : Nat),
      start ≤ l.foldl max start ∧ ∀ n ∈ l, n ≤ l.foldl max start := by
    intro l
    induction l with
    | nil => exact fun start => ⟨Nat.le_refl start, by simp⟩
    | cons m l ih =>
        intro start
        obtain ⟨hstart, hmem⟩ := ih (max start m)
        refine ⟨by rw [List.foldl_cons]; omega, ?_⟩
        intro n hn
        rcases List.mem_cons.mp hn with rfl | hn
        · rw [List.foldl_cons]; omega
        · exact hmem n hn
  exact (hle _ 0).2 (k + 1) (List.mem_map.mpr ⟨(id, k), h, rfl⟩)

theorem mem_row {levels : Levels} {id : String} {k : Nat} :
    id ∈ levels.row k ↔ (id, k) ∈ levels := by
  simp [row]

theorem mem_flatten_rows {levels : Levels} {id : String} :
    id ∈ levels.rows.flatten ↔ id ∈ levels.ids := by
  simp only [rows, List.mem_flatten, List.mem_map, List.mem_range, ids]
  constructor
  · rintro ⟨_, ⟨k, -, rfl⟩, hid⟩
    exact ⟨(id, k), mem_row.mp hid, rfl⟩
  · rintro ⟨⟨id, k⟩, hmem, rfl⟩
    exact ⟨_, ⟨k, lt_depth_of_mem hmem, rfl⟩, mem_row.mpr hmem⟩

end Levels

/-! ### Points -/

namespace Settings

variable {s : Settings} {positions : Positions}

theorem map_fst_of_placeRow {level : Nat} {row : List String}
    (h : s.placeRow level row = .ok positions) : positions.map Prod.fst = row := by
  have hmap : row.zipIdx.map Prod.fst = positions.map Prod.fst := by
    refine map_eq_map_of_forall₂ (forall₂_of_mapM_eq_ok h) ?_
    rintro ⟨id, index⟩ point hpoint
    obtain ⟨corner, -, hcorner⟩ := exists_of_bind_eq_ok hpoint
    obtain rfl := Except.ok.inj hcorner
    rfl
  rw [← hmap, List.zipIdx_map_fst]

theorem map_fst_of_placeRows {rows : List (List String)} (h : s.placeRows rows = .ok positions) :
    positions.map Prod.fst = rows.flatten := by
  obtain ⟨placed, hplaced, rfl⟩ := exists_of_map_eq_ok h
  have hmap : rows.zipIdx.map Prod.fst = placed.map (List.map Prod.fst) := by
    refine map_eq_map_of_forall₂ (forall₂_of_mapM_eq_ok hplaced) ?_
    rintro ⟨row, level⟩ points hpoints
    exact (map_fst_of_placeRow hpoints).symm
  rw [List.map_flatten, ← hmap, List.zipIdx_map_fst]

end Settings

/-- The ids with a point are those that the root reaches. -/
theorem Diagram.isSome_of?_iff_reaches {d : Diagram} {s : Settings} {positions : Positions}
    (h : d.positions s = .ok positions) (id : String) :
    (positions.of? id).isSome ↔ d.Reaches id := by
  have hids : id ∈ positions.map Prod.fst ↔ id ∈ d.levels.ids := by
    rw [Settings.map_fst_of_placeRows h, Levels.mem_flatten_rows]
  rw [← has_levels_iff_reaches, Levels.has_iff_mem_ids, ← hids, Positions.of?]
  simp [List.lookup_isSome_iff]

end Flowchart
