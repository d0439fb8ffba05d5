import Flowchart.Proofs.FirstOccurrence
import Flowchart.Proofs.Layout.Apart

/-! # Rows by expansion

The rows of a layout can also be found without a queue: the first row is the root, and behind a row
stand the ends of the edges that leave it, in the order of its ids and of their edges, without the
ids of this row and the ones before (`Levels.fresh`).

An entry whose id has a level may be dropped wherever it stands in the queue
(`Levels.visit_append_filter`), so it does not matter that a visit puts only some of the ends into
the queue.  Visiting all entries of one level therefore is one step of the expansion
(`Levels.visit_atLevel_append`), and the traversal is a run of such steps
(`Levels.exists_expansion`).  The result for a diagram is `Diagram.rows_levels`. -/

namespace Flowchart

namespace Levels

/-- The ids that are not known, each once, in the order in which they first occur. -/
def fresh (known ids : List String) : List String := (ids.filter fun id => id ∉ known).eraseDups

/-- Entries of ids at one level. -/
def atLevel (level : Nat) (ids : List String) : Levels := ids.map fun id => (id, level)

/-- The edges that leave none of some ids. -/
def remaining (edges : List Edge) (ids : List String) : List Edge :=
  edges.filter fun e => e.source ∉ ids

variable {levels : Levels} {edges : List Edge} {id u : String} {ids known : List String} {k : Nat}

theorem ids_append (levels levels' : Levels) :
    Levels.ids (levels ++ levels') = levels.ids ++ levels'.ids :=
  List.map_append

theorem ids_atLevel (k : Nat) (ids : List String) : Levels.ids (atLevel k ids) = ids := by
  simp [Levels.ids, atLevel, Function.comp_def]

theorem has_eq_false_iff (levels : Levels) (id : String) :
    levels.has id = false ↔ id ∉ levels.ids := by
  rw [← has_iff_mem_ids, Bool.not_eq_true]

/-! ### Fresh ids -/

theorem mem_fresh : id ∈ fresh known ids ↔ id ∈ ids ∧ id ∉ known := by
  simp [fresh]

theorem nodup_fresh (known ids : List String) : (fresh known ids).Nodup := nodup_eraseDups _

theorem fresh_cons_of_mem (h : id ∈ known) : fresh known (id :: ids) = fresh known ids := by
  rw [fresh, List.filter_cons_of_neg (by simpa using h), fresh]

theorem fresh_cons_of_not_mem (h : id ∉ known) :
    fresh known (id :: ids) = id :: fresh (known ++ [id]) ids := by
  rw [fresh, List.filter_cons_of_pos (by simpa using h), List.eraseDups_cons, List.filter_filter,
    fresh]
  congr 2
  apply List.filter_congr
  intro v _
  by_cases hv : v = id <;> simp [hv]

/-! ### Remaining edges -/

theorem remaining_remaining (edges : List Edge) (ids ids' : List String) :
    remaining (remaining edges ids) ids' = remaining edges (ids ++ ids') := by
  rw [remaining, remaining, List.filter_filter, remaining]
  apply List.filter_congr
  intro e _
  simp [Bool.and_comm]

theorem others_eq_remaining (edges : List Edge) (id : String) :
    others edges id = remaining edges [id] := by
  apply List.filter_congr
  intro e _
  by_cases he : e.source = id <;> simp [he]

theorem targets_remaining (edges : List Edge) (h : id ∉ ids) :
    targets (remaining edges ids) id = targets edges id := by
  rw [targets, remaining, List.filter_filter, targets]
  congr 1
  apply List.filter_congr
  intro e _
  by_cases he : e.source = id <;> simp [he, h]

theorem flatMap_targets_remaining (edges : List Edge) (h : ∀ id ∈ ids, id ∉ known) :
    ids.flatMap (targets (remaining edges known)) = ids.flatMap (targets edges) := by
  rw [List.flatMap_def, List.flatMap_def]
  exact congrArg List.flatten (List.map_congr_left fun id hid => targets_remaining edges (h id hid))

/-- An edge leaves one of some distinct ids, or it remains. -/
theorem length_flatMap_targets (edges : List Edge) (h : ids.Nodup) :
    (ids.flatMap (targets edges)).length + (remaining edges ids).length = edges.length := by
  induction ids generalizing edges with
  | nil => simp [remaining]
  | cons id ids ih =>
      obtain ⟨hid, hids⟩ := List.nodup_cons.mp h
      have hrest := ih (others edges id) hids
      rw [others_eq_remaining, remaining_remaining, List.singleton_append,
        flatMap_targets_remaining edges fun v hv => by
          rintro hmem
          exact hid (List.mem_singleton.mp hmem ▸ hv)] at hrest
      have hone := length_targets_add_length_others edges id
      rw [others_eq_remaining] at hone
      rw [List.flatMap_cons, List.length_append]
      omega

/-! ### Dropping entries -/

theorem visit_cons_of_has {rest : Levels} (h : levels.has id = true) :
    visit levels edges ((id, k) :: rest) = visit levels edges rest := by
  rw [visit, if_pos h]

theorem visit_append_cons {levels : Levels} {edges : List Edge} (h : levels.has id = true)
    (queue rest : Levels) :
    visit levels edges (queue ++ (id, k) :: rest) = visit levels edges (queue ++ rest) := by
  match queue with
  | [] => exact visit_cons_of_has h
  | (v, j) :: queue =>
      rw [List.cons_append, List.cons_append, visit, visit.eq_def levels edges ((v, j) :: _)]
      dsimp only
      split
      · exact visit_append_cons h queue rest
      · -- The new entries stand behind the one that is dropped, and its id keeps its level.
        have hvisited : has (levels ++ [(v, j)]) id = true := by
          rw [has_append_singleton, h, Bool.true_or]
        rw [List.append_assoc, List.cons_append, List.append_assoc]
        exact visit_append_cons hvisited queue _
termination_by queue.length + edges.length
decreasing_by
  all_goals
    have := length_targets_add_length_others edges v
    simp only [List.length_cons]
    omega

theorem visit_append_filter (queue rest : Levels) :
    visit levels edges (queue ++ rest.filter fun entry => !levels.has entry.1) =
      visit levels edges (queue ++ rest) := by
  induction rest generalizing queue with
  | nil => rfl
  | cons entry rest ih =>
      obtain ⟨id, k⟩ := entry
      cases h : levels.has id with
      | true => rw [List.filter_cons_of_neg (by simp [h]), ih, visit_append_cons h]
      | false =>
          rw [List.filter_cons_of_pos (by simp [h]), List.append_cons, ih, ← List.append_cons]

/-- A visit may put all ends of the edges into the queue. -/
theorem visit_cons_of_not_has {rest : Levels} (h : levels.has id = false) :
    visit levels edges ((id, k) :: rest) =
      visit (levels ++ [(id, k)]) (others edges id)
        (rest ++ atLevel (k + 1) (targets edges id)) := by
  have hfilter : successors (levels ++ [(id, k)]) edges id k =
      (atLevel (k + 1) (targets edges id)).filter
        fun entry => !has (levels ++ [(id, k)]) entry.1 := by
    rw [successors, atLevel, List.filter_map]
    rfl
  rw [visit, if_neg (by simp [h])]
  dsimp only
  rw [hfilter, visit_append_filter]

/-! ### Steps of the expansion -/

/-- To visit the entries of one level is to visit the fresh ones, and to put the ends of their edges
into the queue. -/
theorem visit_atLevel_append (levels : Levels) (edges : List Edge) (k : Nat) (ids : List String)
    (later : Levels) : visit levels edges (atLevel k ids ++ later) =
      visit (levels ++ atLevel k (fresh levels.ids ids)) (remaining edges (fresh levels.ids ids))
        (later ++ atLevel (k + 1) ((fresh levels.ids ids).flatMap (targets edges))) := by
  induction ids generalizing levels edges later with
  | nil => simp [atLevel, fresh, remaining]
  | cons id ids ih =>
      by_cases hid : id ∈ levels.ids
      · rw [fresh_cons_of_mem hid, ← ih]
        exact visit_cons_of_has ((has_iff_mem_ids levels id).mpr hid)
      · have hvisited : Levels.ids (levels ++ [(id, k)]) = levels.ids ++ [id] := ids_append _ _
        have hends : (fresh (levels.ids ++ [id]) ids).flatMap (targets (remaining edges [id])) =
            (fresh (levels.ids ++ [id]) ids).flatMap (targets edges) := by
          refine flatMap_targets_remaining edges fun v hv hmem => ?_
          exact (mem_fresh.mp hv).2 (List.mem_append_right _ hmem)
        have hvisit : visit levels edges (atLevel k (id :: ids) ++ later) =
            visit (levels ++ [(id, k)]) (others edges id)
              (atLevel k ids ++ (later ++ atLevel (k + 1) (targets edges id))) := by
          rw [← List.append_assoc]
          exact visit_cons_of_not_has ((has_eq_false_iff levels id).mpr hid)
        rw [hvisit, ih, hvisited, fresh_cons_of_not_mem hid, others_eq_remaining,
          remaining_remaining, hends]
        simp [atLevel]

/-- Levels of rows that are counted from a first one. -/
def ofRows (first : Nat) : List (List String) → Levels
  | [] => []
  | row :: rows => atLevel first row ++ ofRows (first + 1) rows

/-- Rows each of which is the expansion of the one before.  The first row is that of some ids, and
the ids of no row are known. -/
structure Expansion (edges : List Edge) (known ids : List String) (rows : List (List String)) :
    Prop where
  first : rows[0]?.getD [] = fresh known ids
  ne_nil : ∀ row ∈ rows, row ≠ []
  next : ∀ i row, rows[i]? = some row → rows[i + 1]?.getD [] =
    fresh (known ++ (rows.take (i + 1)).flatten) (row.flatMap (targets edges))

theorem expansion_nil (h : fresh known ids = []) : Expansion edges known ids [] where
  first := h.symm
  ne_nil := by simp
  next := by simp

theorem Expansion.cons {rows : List (List String)} (hne : fresh known ids ≠ [])
    (h : Expansion edges (known ++ fresh known ids) ((fresh known ids).flatMap (targets edges))
      rows) : Expansion edges known ids (fresh known ids :: rows) where
  first := rfl
  ne_nil := List.forall_mem_cons.mpr ⟨hne, h.ne_nil⟩
  next i row hrow := by
    cases i with
    | zero =>
        obtain rfl := Option.some.inj hrow
        simpa using h.first
    | succ i => simpa using h.next i row hrow

theorem exists_expansion (edges : List Edge) (levels : Levels) (k : Nat) (ids : List String) :
    ∃ rows, Expansion edges levels.ids ids rows ∧
      visit levels (remaining edges levels.ids) (atLevel k ids) = levels ++ ofRows k rows := by
  have hstep := visit_atLevel_append levels (remaining edges levels.ids) k ids []
  have hends : (fresh levels.ids ids).flatMap (targets (remaining edges levels.ids)) =
      (fresh levels.ids ids).flatMap (targets edges) :=
    flatMap_targets_remaining edges fun id hid => (mem_fresh.mp hid).2
  rw [hends, remaining_remaining, List.append_nil, List.nil_append] at hstep
  by_cases hnone : fresh levels.ids ids = []
  · refine ⟨[], expansion_nil hnone, ?_⟩
    rw [hstep, hnone]
    simp [atLevel, ofRows, visit]
  · have hvisited : Levels.ids (levels ++ atLevel k (fresh levels.ids ids)) =
        levels.ids ++ fresh levels.ids ids := by rw [ids_append, ids_atLevel]
    obtain ⟨rows, hrows, hvisit⟩ := exists_expansion edges
      (levels ++ atLevel k (fresh levels.ids ids)) (k + 1)
      ((fresh levels.ids ids).flatMap (targets edges))
    rw [hvisited] at hrows hvisit
    refine ⟨_, hrows.cons hnone, ?_⟩
    rw [hstep, hvisit, ofRows, List.append_assoc]
termination_by (remaining edges levels.ids).length + ids.length
decreasing_by
  -- The ends of the edges that are taken away make up the next ids.
  have hcount := length_flatMap_targets (remaining edges levels.ids) (nodup_fresh levels.ids ids)
  rw [hends, remaining_remaining] at hcount
  have hpos : ids.length ≠ 0 := by
    rintro hzero
    exact hnone (by rw [List.length_eq_zero_iff.mp hzero]; rfl)
  rw [hvisited]
  omega

/-! ### Levels of rows -/

theorem ids_ofRows (first : Nat) (rows : List (List String)) :
    Levels.ids (ofRows first rows) = rows.flatten := by
  induction rows generalizing first with
  | nil => rfl
  | cons row rows ih => rw [ofRows, ids_append, ids_atLevel, ih, List.flatten_cons]

theorem row_ofRows (first : Nat) (rows : List (List String)) (k : Nat) :
    row (ofRows first rows) k = if first ≤ k then rows[k - first]?.getD [] else [] := by
  induction rows generalizing first with
  | nil => simp [ofRows, row]
  | cons ids rows ih =>
      have hhead : row (atLevel first ids) k = if k = first then ids else [] := by
        by_cases hk : k = first
        · simp [row, atLevel, hk, List.filter_map, Function.comp_def]
        · simp [row, atLevel, hk, Ne.symm hk, List.filter_map, Function.comp_def]
      have happend : row (ofRows first (ids :: rows)) k =
          row (atLevel first ids) k ++ row (ofRows (first + 1) rows) k := by
        rw [ofRows, row, List.filter_append, List.map_append]
        rfl
      rw [happend, hhead, ih]
      rcases Nat.lt_trichotomy k first with hlt | rfl | hgt
      · rw [if_neg (by omega), if_neg (by omega), if_neg (by omega), List.append_nil]
      · simp
      · have hindex : k - first = k - (first + 1) + 1 := by omega
        rw [if_neg (by omega), if_pos (by omega), if_pos (by omega), List.nil_append, hindex,
          List.getElem?_cons_succ]

theorem depth_ofRows {rows : List (List String)} (h : ∀ row ∈ rows, row ≠ []) :
    depth (ofRows 0 rows) = rows.length := by
  have hmem : ∀ id k, (id, k) ∈ ofRows 0 rows ↔ ∃ row, rows[k]? = some row ∧ id ∈ row := by
    intro id k
    rw [← mem_row, row_ofRows, if_pos (Nat.zero_le k), Nat.sub_zero]
    cases rows[k]? <;> simp
  refine Nat.le_antisymm (depth_le fun ⟨id, k⟩ hentry => ?_) (Nat.le_of_not_lt fun hlt => ?_)
  · obtain ⟨row, hrow, -⟩ := (hmem id k).mp hentry
    exact (List.getElem?_eq_some_iff.mp hrow).1
  · obtain ⟨id, hid⟩ := List.exists_mem_of_ne_nil _ (h _ (List.getElem_mem hlt))
    have := lt_depth_of_mem ((hmem id _).mpr ⟨_, List.getElem?_eq_getElem hlt, hid⟩)
    omega

/-- Rows without an empty one are those of their levels. -/
theorem rows_ofRows {rows : List (List String)} (h : ∀ row ∈ rows, row ≠ []) :
    Levels.rows (ofRows 0 rows) = rows := by
  rw [Levels.rows, depth_ofRows h]
  refine List.ext_getElem? fun k => ?_
  rw [List.getElem?_map]
  rcases Nat.lt_or_ge k rows.length with hlt | hge
  · rw [List.getElem?_range hlt, Option.map_some, row_ofRows, if_pos (Nat.zero_le k), Nat.sub_zero,
      List.getElem?_eq_getElem hlt]
    rfl
  · rw [List.getElem?_eq_none hge, List.getElem?_eq_none (by simpa using hge), Option.map_none]

end Levels

/-! ### Rows of a diagram -/

namespace Diagram

variable {d : Diagram} {root : Node}

theorem expansion_levels (h : d.root? = some root) :
    Levels.Expansion d.edges [] [root.id] d.levels.rows ∧
      d.levels = Levels.ofRows 0 d.levels.rows := by
  obtain ⟨rows, hrows, hvisit⟩ := Levels.exists_expansion d.edges [] 0 [root.id]
  have hall : Levels.remaining d.edges [] = d.edges := by simp [Levels.remaining]
  have hlevels : d.levels = Levels.ofRows 0 rows := by
    rw [levels, h]
    exact (congrArg (Levels.visit [] · [(root.id, 0)]) hall).symm.trans hvisit
  rw [hlevels, Levels.rows_ofRows hrows.ne_nil]
  exact ⟨hrows, rfl⟩

/-- **Rows are found level by level.**  The first row is the root.  Behind every row stand the ends
of the edges that leave it, without the ids of this row and the ones before, in the order in which
they first occur when the ids of the row are taken one after the other with their edges; there are
no more rows when that leaves nothing.  The ids of a row have its number as level and are placed by
it, and all ids with a level are those of the rows, in their order. -/
theorem rows_levels (h : d.root? = some root) :
    d.levels.rows[0]? = some [root.id] ∧
    (∀ k row, d.levels.rows[k]? = some row → row ≠ [] ∧
      d.levels.rows[k + 1]?.getD [] = Levels.fresh (d.levels.rows.take (k + 1)).flatten
        (row.flatMap (Levels.targets d.edges)) ∧
      ∀ id ∈ row, d.levels.of? id = some k) ∧
    d.levels.ids = d.levels.rows.flatten ∧
    ∀ s positions, d.positions s = .ok positions → ∀ id p, positions.of? id = some p →
      ∃ k index row, d.levels.rows[k]? = some row ∧ row[index]? = some id ∧
        d.levels.of? id = some k ∧ s.place k index row.length = .ok p := by
  obtain ⟨hrows, hlevels⟩ := expansion_levels h
  obtain ⟨left, hv⟩ := visiting_levels h
  have hlevel : ∀ k row, d.levels.rows[k]? = some row → ∀ id ∈ row, d.levels.of? id = some k := by
    intro k row hrow id hid
    rw [Levels.rows, List.getElem?_map] at hrow
    obtain ⟨j, hj, rfl⟩ := Option.map_eq_some_iff.mp hrow
    obtain ⟨hlt, hj⟩ := List.getElem?_eq_some_iff.mp hj
    rw [List.getElem_range] at hj
    subst hj
    exact Levels.of?_eq_some_of_mem hv.nodup (Levels.mem_row.mp hid)
  refine ⟨?_, fun k row hrow => ⟨hrows.ne_nil row (List.mem_of_getElem? hrow),
    hrows.next k row hrow, hlevel k row hrow⟩, ?_, fun s positions hpositions id p hp => ?_⟩
  · have hfirst : d.levels.rows[0]?.getD [] = [root.id] := hrows.first
    cases hrow : d.levels.rows[0]? with
    | none =>
        rw [hrow] at hfirst
        cases hfirst
    | some row =>
        rw [hrow] at hfirst
        exact congrArg some hfirst
  · exact (congrArg Levels.ids hlevels).trans (Levels.ids_ofRows 0 _)
  · obtain ⟨k, index, row, hrow, hid, hplace⟩ :=
      Settings.exists_of_mem_placeRows hpositions (mem_of_lookup_eq_some hp)
    exact ⟨k, index, row, hrow, hid, hlevel k row hrow id (List.mem_of_getElem? hid), hplace⟩

/-- A diagram in which two nodes of a row have edges to the same two nodes, given in other orders,
with a cycle, a loop, an edge given twice and an end that is no node. -/
def braid : Diagram where
  kind := .flowchart
  direction := .topBottom
  nodes := [.implicit "a", .implicit "b", .implicit "c", .implicit "d", .implicit "e"]
  edges := [⟨"a", "b", none, .arrow⟩, ⟨"a", "c", none, .arrow⟩, ⟨"a", "b", none, .thick⟩,
    ⟨"c", "d", none, .arrow⟩, ⟨"b", "e", none, .arrow⟩, ⟨"c", "e", none, .arrow⟩,
    ⟨"b", "d", none, .arrow⟩, ⟨"d", "a", none, .arrow⟩, ⟨"e", "e", none, .arrow⟩,
    ⟨"e", "ghost", none, .arrow⟩]

theorem rows_levels_braid :
    braid.root? = some (.implicit "a") ∧
    braid.levels.rows = [["a"], ["b", "c"], ["e", "d"], ["ghost"]] ∧
    ["e", "d"] = Levels.fresh ["a", "b", "c"] (["b", "c"].flatMap (Levels.targets braid.edges)) ∧
    braid.levels.of? "ghost" = some 3 ∧
    braid.levels.ids = ["a", "b", "c", "e", "d", "ghost"] ∧
    ∃ positions, braid.positions .standard = .ok positions ∧
      positions.of? "d" = some ⟨.real (.finite 400), 350⟩ ∧
      Settings.standard.place 2 1 2 = .ok ⟨.real (.finite 400), 350⟩ := by
  have hroot : braid.root? = some (.implicit "a") := rfl
  have hrows : braid.levels.rows = [["a"], ["b", "c"], ["e", "d"], ["ghost"]] := by
    decide +kernel
  have hplaced : (fun positions : Positions => positions.of? "d") <$> braid.positions .standard =
      .ok (some ⟨.real (.finite 400), 350⟩) := by
    decide +kernel
  have honly : ∀ index, ["e", "d"][index]? = some "d" → index = 1
    | 0, h => absurd h (by decide)
    | 1, _ => rfl
  obtain ⟨positions, hpositions, hd⟩ := exists_of_map_eq_ok hplaced
  obtain ⟨-, hnext, hids, hplace⟩ := rows_levels hroot
  rw [hrows] at hnext hids
  obtain ⟨k, index, row, hrow, hindex, hlevel, hplace⟩ :=
    hplace .standard positions hpositions _ _ hd
  obtain rfl : k = 2 :=
    Option.some.inj (hlevel.symm.trans ((hnext 2 _ rfl).2.2 "d" (by decide)))
  obtain rfl : row = ["e", "d"] := by
    rw [hrows] at hrow
    exact (Option.some.inj hrow).symm
  obtain rfl := honly index hindex
  exact ⟨hroot, hrows, (hnext 1 _ rfl).2.1, (hnext 3 _ rfl).2.2 "ghost" (by decide), hids,
    positions, hpositions, hd, hplace⟩

end Diagram

end Flowchart
