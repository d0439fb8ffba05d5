import Mathlib.Data.List.Basic
import Flowchart.Layout.Level

/-! # Levels are distances

A path follows edges forward (`Path`), and the distance of an id is the length of its shortest path
from a source (`IsDistance`).  The traversal of a queue keeps `Visiting`: the levels given so far
are distances, the entries of the queue are ends of paths, in the order of their levels and at most
one level apart, and every edge out of a visited id leads to a visited one or into the queue.  The
ids that a path reaches before it leaves the visited ones are therefore in the queue
(`Visiting.exists_entry`), so that no shorter path to the first entry exists.

The levels of a diagram are thus the distances from its root
(`levels_of?_eq_some_iff_isDistance`). -/

namespace Flowchart

/-- A path of `k` edges from a source to an id. -/
inductive Path (edges : List Edge) (source : String) : String → Nat → Prop
  | refl : Path edges source source 0
  | step {e : Edge} {k : Nat} :
      Path edges source e.source k → e ∈ edges → Path edges source e.target (k + 1)

/-- The shortest path from a source to an id has `k` edges. -/
def IsDistance (edges : List Edge) (source id : String) (k : Nat) : Prop :=
  Path edges source id k ∧ ∀ j, Path edges source id j → k ≤ j

theorem IsDistance.unique {edges : List Edge} {source id : String} {j k : Nat}
    (hj : IsDistance edges source id j) (hk : IsDistance edges source id k) : j = k :=
  Nat.le_antisymm (hj.2 k hk.1) (hk.2 j hj.1)

/-- Some path leads from the root of a diagram to an id. -/
def Diagram.Reaches (d : Diagram) (id : String) : Prop :=
  ∃ root, d.root? = some root ∧ ∃ k, Path d.edges root.id id k

namespace Levels

/-! ### Looking up levels -/

theorem of?_append_singleton (levels : Levels) (id v : String) (level : Nat) :
    of? (levels ++ [(id, level)]) v = (levels.of? v).or (if v = id then some level else none) := by
  rw [of?, List.lookup_append]
  congr 1
  by_cases h : v = id
  · simp [h]
  · simp [List.lookup_cons, beq_false_of_ne h, h]

theorem has_append_singleton (levels : Levels) (id v : String) (level : Nat) :
    has (levels ++ [(id, level)]) v = (levels.has v || v == id) := by
  unfold has
  rw [of?_append_singleton]
  by_cases h : v = id <;> cases levels.of? v <;> simp [h]

theorem has_iff_mem_ids (levels : Levels) (id : String) :
    levels.has id = true ↔ id ∈ levels.ids := by
  simp [has, of?, ids, List.lookup_isSome_iff]

theorem of?_eq_none_iff (levels : Levels) (id : String) :
    levels.of? id = none ↔ levels.has id = false := by
  unfold has
  cases levels.of? id <;> simp

theorem mem_successors {levels : Levels} {edges : List Edge} {id v : String} {level k : Nat} :
    (v, k) ∈ successors levels edges id level ↔
      k = level + 1 ∧ levels.has v = false ∧ ∃ e ∈ edges, e.source = id ∧ e.target = v := by
  simp only [successors, targets, List.mem_map, List.mem_filter, Prod.mk.injEq, beq_iff_eq,
    Bool.not_eq_true']
  constructor
  · rintro ⟨target, ⟨⟨e, ⟨he, hs⟩, rfl⟩, hlevel⟩, rfl, rfl⟩
    exact ⟨rfl, hlevel, e, he, hs, rfl⟩
  · rintro ⟨rfl, hlevel, e, he, hs, rfl⟩
    exact ⟨e.target, ⟨⟨e, ⟨he, hs⟩, rfl⟩, hlevel⟩, rfl, rfl⟩

/-! ### The invariant of the traversal -/

/-- What holds while the ids reached from a source are visited.  `rest` are the edges whose source
has no level yet. -/
structure Visiting (edges : List Edge) (source : String) (levels : Levels) (rest : List Edge)
    (queue : Levels) : Prop where
  rest_eq : rest = edges.filter fun e => !levels.has e.source
  nodup : levels.ids.Nodup
  distance : ∀ v k, levels.of? v = some k → IsDistance edges source v k
  path : ∀ v k, (v, k) ∈ queue → Path edges source v k
  sorted : queue.Pairwise fun a b => a.2 ≤ b.2
  narrow : ∀ a ∈ queue, ∀ b ∈ queue, b.2 ≤ a.2 + 1
  start : levels.has source = true ∨ (source, 0) ∈ queue
  frontier : ∀ e ∈ edges, ∀ k, levels.of? e.source = some k →
    levels.has e.target = true ∨ (e.target, k + 1) ∈ queue

namespace Visiting

variable {edges rest : List Edge} {source id : String} {levels queue : Levels} {level : Nat}

theorem init (edges : List Edge) (source : String) :
    Visiting edges source [] edges [(source, 0)] where
  rest_eq := (List.filter_eq_self.mpr (by simp [has, of?])).symm
  nodup := List.nodup_nil
  distance := by simp [of?]
  path := by
    intro v k h
    obtain ⟨rfl, rfl⟩ : v = source ∧ k = 0 := by simpa using h
    exact .refl
  sorted := List.pairwise_singleton _ _
  narrow := by simp
  start := by simp
  frontier := by simp [of?]

/-- A path to an id without a level passes an entry of the queue, at its level or later. -/
theorem exists_entry (h : Visiting edges source levels rest queue) {v : String} {j : Nat}
    (hp : Path edges source v j) (hv : levels.has v = false) :
    ∃ entry ∈ queue, entry.2 ≤ j := by
  induction hp with
  | refl =>
      rcases h.start with hs | hs
      · rw [hv] at hs; cases hs
      · exact ⟨_, hs, Nat.le_refl 0⟩
  | @step e k hp he ih =>
      cases hsource : levels.of? e.source with
      | none =>
          obtain ⟨entry, hentry, hle⟩ := ih ((of?_eq_none_iff levels e.source).mp hsource)
          exact ⟨entry, hentry, Nat.le_succ_of_le hle⟩
      | some i =>
          -- The path leaves the visited ids by this edge, so its end stands in the queue.
          have hi : i ≤ k := (h.distance _ _ hsource).2 k hp
          rcases h.frontier e he i hsource with ht | ht
          · rw [hv] at ht; cases ht
          · exact ⟨_, ht, Nat.succ_le_succ hi⟩

/-- The first entry is at its distance, unless it was visited before. -/
theorem isDistance_head (h : Visiting edges source levels rest ((id, level) :: queue))
    (hid : levels.has id = false) : IsDistance edges source id level := by
  refine ⟨h.path id level List.mem_cons_self, ?_⟩
  intro j hj
  obtain ⟨entry, hentry, hle⟩ := h.exists_entry hj hid
  rcases List.mem_cons.mp hentry with rfl | hmem
  · exact hle
  · exact Nat.le_trans ((List.pairwise_cons.mp h.sorted).1 entry hmem) hle

/-- An entry that was visited before may be dropped. -/
theorem skip (h : Visiting edges source levels rest ((id, level) :: queue))
    (hid : levels.has id = true) : Visiting edges source levels rest queue where
  rest_eq := h.rest_eq
  nodup := h.nodup
  distance := h.distance
  path v k hmem := h.path v k (List.mem_cons_of_mem _ hmem)
  sorted := (List.pairwise_cons.mp h.sorted).2
  narrow a ha b hb := h.narrow a (List.mem_cons_of_mem _ ha) b (List.mem_cons_of_mem _ hb)
  start := by
    rcases h.start with hs | hs
    · exact .inl hs
    · rcases List.mem_cons.mp hs with heq | hs
      · obtain ⟨rfl, rfl⟩ := Prod.mk.inj heq
        exact .inl hid
      · exact .inr hs
  frontier e he k hk := by
    rcases h.frontier e he k hk with ht | ht
    · exact .inl ht
    · rcases List.mem_cons.mp ht with heq | ht
      · obtain ⟨rfl, rfl⟩ := Prod.mk.inj heq
        exact .inl hid
      · exact .inr ht

/-- A path of edges out of the first entry leads to its successors. -/
theorem path_successors (h : Visiting edges source levels rest ((id, level) :: queue))
    {visited : Levels} {v : String} {k : Nat} (hmem : (v, k) ∈ successors visited rest id level) :
    Path edges source v k := by
  obtain ⟨rfl, -, e, he, rfl, rfl⟩ := mem_successors.mp hmem
  rw [h.rest_eq] at he
  exact .step (h.path _ _ List.mem_cons_self) (List.mem_filter.mp he).1

/-- The levels of the queue after a visit: all lie between the visited level and the next. -/
theorem level_of_mem (h : Visiting edges source levels rest ((id, level) :: queue))
    {visited : Levels} {entry : String × Nat}
    (hmem : entry ∈ queue ++ successors visited rest id level) :
    level ≤ entry.2 ∧ entry.2 ≤ level + 1 := by
  rcases List.mem_append.mp hmem with hq | hs
  · exact ⟨(List.pairwise_cons.mp h.sorted).1 entry hq,
      h.narrow (id, level) List.mem_cons_self entry (List.mem_cons_of_mem _ hq)⟩
  · obtain ⟨hk, -⟩ := mem_successors.mp hs
    omega

/-- An id without a level takes that of the first entry. -/
theorem visit (h : Visiting edges source levels rest ((id, level) :: queue))
    (hid : levels.has id = false) :
    Visiting edges source (levels ++ [(id, level)]) (others rest id)
      (queue ++ successors (levels ++ [(id, level)]) rest id level) where
  rest_eq := by
    rw [h.rest_eq, others, List.filter_filter]
    congr 1
    funext e
    rw [has_append_singleton, Bool.not_or, Bool.and_comm, bne]
  nodup := by
    have hnot : id ∉ levels.ids := by rw [← has_iff_mem_ids, hid]; decide
    have hids : Levels.ids (levels ++ [(id, level)]) = levels.ids ++ [id] := by simp [ids]
    rw [hids, List.nodup_append]
    refine ⟨h.nodup, List.pairwise_singleton _ id, ?_⟩
    intro v hv w hw
    obtain rfl : w = id := by simpa using hw
    exact ne_of_mem_of_not_mem hv hnot
  distance v k hk := by
    rw [of?_append_singleton] at hk
    cases hv : levels.of? v with
    | some i =>
        obtain rfl : i = k := by simpa [hv] using hk
        exact h.distance v i hv
    | none =>
        obtain ⟨rfl, rfl⟩ : v = id ∧ level = k := by simpa [hv] using hk
        exact h.isDistance_head hid
  path v k hmem := by
    rcases List.mem_append.mp hmem with hq | hs
    · exact h.path v k (List.mem_cons_of_mem _ hq)
    · exact h.path_successors hs
  sorted := by
    rw [List.pairwise_append]
    refine ⟨(List.pairwise_cons.mp h.sorted).2, ?_, ?_⟩
    · refine List.pairwise_of_forall_mem_list ?_
      intro a ha b hb
      exact Nat.le_of_eq ((mem_successors.mp ha).1.trans (mem_successors.mp hb).1.symm)
    · intro a ha b hb
      rw [(mem_successors.mp hb).1]
      exact h.narrow (id, level) List.mem_cons_self a (List.mem_cons_of_mem _ ha)
  narrow a ha b hb := by
    have := (h.level_of_mem ha).1
    have := (h.level_of_mem hb).2
    omega
  start := by
    rcases h.start with hs | hs
    · exact .inl (by rw [has_append_singleton, hs, Bool.true_or])
    · rcases List.mem_cons.mp hs with heq | hs
      · obtain ⟨rfl, rfl⟩ := Prod.mk.inj heq
        exact .inl (by simp [has_append_singleton])
      · exact .inr (List.mem_append_left _ hs)
  frontier e he k hk := by
    rw [has_append_singleton, Bool.or_eq_true, beq_iff_eq]
    rw [of?_append_singleton] at hk
    cases hsource : levels.of? e.source with
    | some i =>
        obtain rfl : i = k := by simpa [hsource] using hk
        rcases h.frontier e he i hsource with ht | ht
        · exact .inl (.inl ht)
        · rcases List.mem_cons.mp ht with heq | ht
          · exact .inl (.inr (Prod.mk.inj heq).1)
          · exact .inr (List.mem_append_left _ ht)
    | none =>
        -- The edge leaves the id that is visited now.
        obtain ⟨hs, rfl⟩ : e.source = id ∧ level = k := by simpa [hsource] using hk
        by_cases htarget : Levels.has (levels ++ [(id, level)]) e.target = true
        · rw [has_append_singleton, Bool.or_eq_true, beq_iff_eq] at htarget
          exact .inl htarget
        · refine .inr (List.mem_append_right _
            (mem_successors.mpr ⟨rfl, by simpa using htarget, e, ?_, hs, rfl⟩))
          rw [h.rest_eq, List.mem_filter]
          exact ⟨he, by rw [hs, hid, Bool.not_false]⟩

end Visiting

/-- A traversal keeps its invariant and ends with an empty queue. -/
theorem visiting_visit {edges : List Edge} {source : String} {levels : Levels} {rest : List Edge}
    {queue : Levels} (h : Visiting edges source levels rest queue) :
    ∃ left, Visiting edges source (visit levels rest queue) left [] := by
  fun_induction visit levels rest queue with
  | case1 levels rest => exact ⟨rest, h⟩
  | case2 levels rest id level queue hid ih => exact ih (h.skip hid)
  | case3 levels rest id level queue hid visited ih => exact ih (h.visit (by simpa using hid))

theorem Visiting.of?_eq_some_iff {edges left : List Edge} {source : String} {levels : Levels}
    (h : Visiting edges source levels left []) (v : String) (k : Nat) :
    levels.of? v = some k ↔ IsDistance edges source v k := by
  refine ⟨h.distance v k, ?_⟩
  intro hk
  cases hv : levels.of? v with
  | some i => rw [(h.distance v i hv).unique hk]
  | none =>
      obtain ⟨entry, hentry, -⟩ := h.exists_entry hk.1 ((of?_eq_none_iff levels v).mp hv)
      cases hentry

end Levels

/-! ### Levels of a diagram -/

namespace Diagram

variable {d : Diagram} {root : Node}

theorem visiting_levels (h : d.root? = some root) :
    ∃ left, Levels.Visiting d.edges root.id d.levels left [] := by
  unfold levels
  rw [h]
  exact Levels.visiting_visit (.init d.edges root.id)

/-- The ids with a level are those that the root reaches. -/
theorem has_levels_iff_reaches (d : Diagram) (id : String) :
    d.levels.has id = true ↔ d.Reaches id := by
  unfold Reaches
  cases hroot : d.root? with
  | none => simp [levels, hroot, Levels.has, Levels.of?]
  | some root =>
      obtain ⟨left, h⟩ := visiting_levels hroot
      simp only [Option.some.injEq, exists_eq_left']
      constructor
      · intro hid
        obtain ⟨k, hk⟩ := Option.isSome_iff_exists.mp hid
        exact ⟨k, (h.distance id k hk).1⟩
      · rintro ⟨k, hk⟩
        cases hid : d.levels.has id with
        | true => rfl
        | false =>
            obtain ⟨entry, hentry, -⟩ := h.exists_entry hk hid
            cases hentry

instance (d : Diagram) (id : String) : Decidable (d.Reaches id) :=
  decidable_of_iff _ (has_levels_iff_reaches d id)

/-- **Levels are distances from the root.**  Every id has one level at most; it is `k` exactly when
the shortest path from the root has `k` edges, and ids without a path from the root have none. -/
theorem levels_of?_eq_some_iff_isDistance (h : d.root? = some root) :
    d.levels.ids.Nodup ∧ ∀ id,
      (∀ k, d.levels.of? id = some k ↔ IsDistance d.edges root.id id k) ∧
      (d.levels.of? id = none ↔ ¬ ∃ k, Path d.edges root.id id k) := by
  obtain ⟨left, hv⟩ := visiting_levels h
  refine ⟨hv.nodup, fun id => ⟨hv.of?_eq_some_iff id, ?_⟩⟩
  have hreach : d.Reaches id ↔ ∃ k, Path d.edges root.id id k := by simp [Reaches, h]
  rw [← hreach, ← has_levels_iff_reaches, Levels.of?_eq_none_iff, Bool.not_eq_true]

/-- A diagram with a cycle, a loop, an edge given twice and an end that is no node. -/
def tangle : Diagram where
  kind := .flowchart
  direction := .topBottom
  nodes := [.implicit "a", .implicit "b", .implicit "c"]
  edges := [⟨"a", "b", none, .arrow⟩, ⟨"a", "b", none, .thick⟩, ⟨"b", "b", none, .arrow⟩,
    ⟨"b", "ghost", none, .arrow⟩, ⟨"ghost", "a", none, .arrow⟩, ⟨"c", "a", none, .arrow⟩]

theorem levels_of?_tangle_eq_some_iff :
    tangle.levels = [("a", 0), ("b", 1), ("ghost", 2)] ∧
    tangle.root? = some (.implicit "a") ∧ tangle.levels.ids.Nodup ∧ ∀ id,
      (∀ k, tangle.levels.of? id = some k ↔ IsDistance tangle.edges "a" id k) ∧
      (tangle.levels.of? id = none ↔ ¬ ∃ k, Path tangle.edges "a" id k) :=
  have h : tangle.root? = some (.implicit "a") := rfl
  ⟨by decide +kernel, h, levels_of?_eq_some_iff_isDistance h⟩

end Diagram

end Flowchart
