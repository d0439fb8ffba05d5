import Flowchart.Proofs.Canvas.Cells

/-! # Conversions without rounding

With settings that are exact for a diagram, the shapes of its nodes are exact: a node stands at the
corner of its place, or at the fallback point if it has none (`Node.Draws.exact`).  The connectors
run between the centres of shapes (`exists_exact_of_convert`). -/

namespace Flowchart

/-- A connector runs between the centres of two shapes. -/
structure ConnectorElement.Links (shapes : List ShapeElement) (c : ConnectorElement) : Prop where
  start : ∃ a ∈ shapes, a.center = .ok c.start
  stop : ∃ a ∈ shapes, a.center = .ok c.stop

variable {s : Settings} {k n : Nat} {bound : Rat} {positions : Positions} {node : Node}
  {a : ShapeElement}

theorem Node.Draws.frame_eq {corner : Point} (h : node.Draws s positions a)
    (hcorner : positions.of? node.id = some corner) : a.frame = s.frame corner := by
  have hxy := h.corner
  rw [hcorner] at hxy
  obtain rfl := hxy
  rw [ShapeElement.frame, Settings.frame, h.width, h.height]

/-- Settings with which a number of nodes is drawn without rounding, if their coordinates stay
within a bound. -/
structure Settings.Draws (s : Settings) (k count : Nat) (bound : Rat) : Prop where
  fine : k < 1074
  finite : s.Finite
  whole : ∀ field, OnGrid k (s.get field).value
  proper : s.Proper
  extent_le : s.extent count ≤ bound
  small : bound * 2 ^ k < 2 ^ 51

namespace Settings.Draws

variable (h : s.Draws k n bound)
include h

theorem exact : s.Exact k n where
  fine := h.fine
  finite := h.finite
  whole := h.whole
  small := by
    have hle : s.extent n * 2 ^ k ≤ bound * 2 ^ k :=
      mul_le_mul_of_nonneg_right h.extent_le (by positivity)
    linarith [h.small]

theorem small_of_abs_le {q : Rat} (hle : |q| ≤ bound) : |q| * 2 ^ (k + 1) < 2 ^ 52 := by
  have hstep : |q| * 2 ^ k ≤ bound * 2 ^ k := mul_le_mul_of_nonneg_right hle (by positivity)
  rw [pow_succ]
  linarith [h.small]

theorem near {x : Number} {q : Rat} (hx : x.Is q) (hq : OnGrid (k + 1) q) (hle : |q| ≤ bound) :
    x.Near (k + 1) :=
  .of_is h.fine hx hq (h.small_of_abs_le hle)

theorem near_setting (hpos : 0 < n) (field : Field)
    (hfield : field ∈ Field.positive ++ Field.nonnegative) : (s.get field).Near (k + 1) := by
  obtain ⟨hnonneg, hle⟩ := h.proper.setting_le_extent hpos field hfield
  refine h.near (h.finite field) (h.whole field).succ ?_
  rw [abs_of_nonneg hnonneg]
  exact hle.trans h.extent_le

/-- A shape of the size of nodes is exact if its corners are. -/
theorem exact_of_corner (hpos : 0 < n) (hwidth : a.width = s.nodeWidth)
    (hheight : a.height = s.nodeHeight) {x y : Rat} (hx : a.x.Is x) (hy : a.y.Is y)
    (hxGrid : OnGrid (k + 1) x) (hyGrid : OnGrid (k + 1) y) (hleft : |x| ≤ bound)
    (hright : |x + s.nodeWidth.value| ≤ bound) (htop : |y| ≤ bound)
    (hbottom : |y + s.nodeHeight.value| ≤ bound) : a.Exact (k + 1) where
  x := h.near hx hxGrid hleft
  y := h.near hy hyGrid htop
  width := hwidth ▸ h.near_setting hpos .nodeWidth (by decide)
  height := hheight ▸ h.near_setting hpos .nodeHeight (by decide)
  width_nonneg := hwidth ▸ h.proper.nodeWidth.le
  height_nonneg := hheight ▸ h.proper.nodeHeight.le
  halfWidth := hwidth ▸ (h.whole .nodeWidth).half
  halfHeight := hheight ▸ (h.whole .nodeHeight).half
  right_small := by
    rw [ShapeElement.frame, hx.value_eq, hwidth]
    exact h.small_of_abs_le hright
  bottom_small := by
    rw [ShapeElement.frame, hy.value_eq, hheight]
    exact h.small_of_abs_le hbottom

end Settings.Draws

theorem Node.Draws.exact {d : Diagram} (h : s.Draws k n bound) (hn : d.edges.length < n)
    (hpositions : d.positions s = .ok positions) (hdraws : node.Draws s positions a)
    (hfallback : positions.of? node.id = none →
      |s.fallbackX.value| + s.nodeWidth.value ≤ bound ∧
        |s.fallbackY.value| + s.nodeHeight.value ≤ bound) : a.Exact (k + 1) := by
  have hpos : 0 < n := by omega
  have hwidth := h.proper.nodeWidth
  have hheight := h.proper.nodeHeight
  have hxy := hdraws.corner
  cases hcorner : positions.of? node.id with
  | none =>
      rw [hcorner] at hxy
      obtain ⟨hx, hy⟩ := Point.mk.inj hxy
      obtain ⟨hboundX, hboundY⟩ := hfallback hcorner
      have hsumX := abs_add_le s.fallbackX.value s.nodeWidth.value
      have hsumY := abs_add_le s.fallbackY.value s.nodeHeight.value
      rw [abs_of_pos hwidth] at hsumX
      rw [abs_of_pos hheight] at hsumY
      have hatX : a.x.Is s.fallbackX.value := by
        rw [hx]
        exact h.finite .fallbackX
      have hatY : a.y.Is s.fallbackY.value := by
        rw [hy]
        exact h.finite .fallbackY
      exact h.exact_of_corner hpos hdraws.width hdraws.height hatX hatY
        (h.whole .fallbackX).succ (h.whole .fallbackY).succ (by linarith) (by linarith)
        (by linarith) (by linarith)
  | some corner =>
      rw [hcorner] at hxy
      obtain ⟨hx, hy⟩ := Point.mk.inj hxy
      obtain ⟨positions', hpositions', hplaced⟩ := Diagram.exists_positions h.exact h.proper hn
      obtain rfl := Except.ok.inj (hpositions.symm.trans hpositions')
      obtain ⟨level, index, row, hlevel, hindex, hlength, -, -, hat⟩ := hplaced _ _ hcorner
      have hleft := h.proper.minMargin_le_cornerX index row.length
      have htop := h.proper.topMargin_le_cornerY level
      have hright := h.proper.cornerX_le_extent row.length (show index < n by omega)
      have hbottom := h.proper.cornerY_le_extent hlevel
      have hmargin := h.proper.minMargin
      have htopMargin := h.proper.topMargin
      have hextent := h.extent_le
      refine h.exact_of_corner hpos hdraws.width hdraws.height (hx ▸ hat.x) (hy ▸ hat.y)
        (h.exact.onGrid_cornerX index row.length) (h.exact.onGrid_cornerY level) ?_ ?_ ?_ ?_
      all_goals rw [abs_of_nonneg (by linarith)]; linarith

/-! ### Conversions -/

/-- The centre at the corner of a shape is that of the shape. -/
theorem Node.Draws.centerAt_eq (h : node.Draws s positions a) {corner center : Point}
    (hcorner : positions.of? node.id = some corner) (hcenter : a.center = .ok center) :
    s.centerAt corner = .ok center := by
  have hxy := h.corner
  rw [hcorner] at hxy
  obtain rfl := hxy
  obtain ⟨halfWidth, hwidth, hcenter⟩ := exists_of_bind_eq_ok hcenter
  obtain ⟨x, hx, hcenter⟩ := exists_of_bind_eq_ok hcenter
  obtain ⟨halfHeight, hheight, hcenter⟩ := exists_of_bind_eq_ok hcenter
  obtain ⟨y, hy, hcenter⟩ := exists_of_bind_eq_ok hcenter
  obtain rfl := Except.ok.inj hcenter
  rw [h.width] at hwidth
  rw [h.height] at hheight
  exact bind_eq_ok hwidth (bind_eq_ok hheight (bind_eq_ok hx (bind_eq_ok hy rfl)))

/-- Connectors between corners with a centre are made. -/
theorem exists_connectors {edges : List Edge}
    (h : ∀ e ∈ edges, ∀ id ∈ [e.source, e.target], ∀ corner, positions.of? id = some corner →
      ∃ center, s.centerAt corner = .ok center) (earlier : List String) :
    ∃ arrows, connectors s positions earlier edges = .ok arrows := by
  induction edges generalizing earlier with
  | nil => exact ⟨[], rfl⟩
  | cons e edges ih =>
      obtain ⟨he, hedges⟩ := List.forall_mem_cons.mp h
      rcases e.placed_cases positions with hout | ⟨start, stop, hstart, hstop⟩
      · rw [connectors_cons_of_not_placed hout]
        exact ih hedges earlier
      · obtain ⟨first, hfirst⟩ := he e.source (by simp) start hstart
        obtain ⟨last, hlast⟩ := he e.target (by simp) stop hstop
        obtain ⟨rest, hrest⟩ := ih hedges (e.baseId :: earlier)
        rw [connectors, hstart, hstop]
        exact ⟨_, bind_eq_ok (bind_eq_ok hfirst (bind_eq_ok hlast rfl)) (bind_eq_ok hrest rfl)⟩

theorem exists_convert {σ : Type} (g : Generator σ) (state : σ) {text : String} {d : Diagram}
    (htext : Diagram.ofText text = .ok d) (h : s.Draws k n bound) (hn : d.edges.length < n) :
    ∃ elements state', convert text s g state = .ok (elements, state') := by
  obtain ⟨positions, hpositions, -⟩ := Diagram.exists_positions h.exact h.proper hn
  have hclosed := Diagram.closed_of_ofText htext
  have hcenter : ∀ id ∈ d.nodes.map Node.id, ∀ corner, positions.of? id = some corner →
      ∃ center, s.centerAt corner = .ok center := by
    intro id hid corner hcorner
    obtain ⟨node, -, rfl⟩ := List.mem_map.mp hid
    have hdraws : node.Draws s positions (node.element s positions) := ⟨rfl, rfl, rfl, rfl, rfl⟩
    have hexact := hdraws.exact h hn hpositions fun hnone => by
      rw [hnone] at hcorner
      cases hcorner
    obtain ⟨center, hcenter, -⟩ := hexact.exists_center
    exact ⟨center, hdraws.centerAt_eq hcorner hcenter⟩
  have hends : ∀ e ∈ d.edges, ∀ id ∈ [e.source, e.target], id ∈ d.nodes.map Node.id := by
    intro e he id hid
    simp only [List.mem_cons, List.not_mem_nil, or_false] at hid
    rcases hid with rfl | rfl
    · exact hclosed.source e he
    · exact hclosed.target e he
  obtain ⟨arrows, harrows⟩ :=
    exists_connectors (fun e he id hid => hcenter id (hends e he id hid)) []
  have hdrawn := bind_eq_ok hpositions (f := synthesize g state s d.nodes d.edges)
    (bind_eq_ok (bind_eq_ok harrows rfl) rfl)
  exact ⟨_, _, bind_eq_ok (mapError_eq_ok htext) (mapError_eq_ok hdrawn)⟩

/-- What a conversion draws without rounding: exact shapes, and connectors between the centres of
two of them. -/
theorem exists_exact_of_convert {σ : Type} {g : Generator σ} {state state' : σ} {text : String}
    {elements : List Element} {d : Diagram} (htext : Diagram.ofText text = .ok d)
    (hconvert : convert text s g state = .ok (elements, state')) (h : s.Draws k n bound)
    (hn : d.edges.length < n)
    (hfallback : ∀ node ∈ d.nodes, ¬ d.Reaches node.id →
      |s.fallbackX.value| + s.nodeWidth.value ≤ bound ∧
        |s.fallbackY.value| + s.nodeHeight.value ≤ bound) :
    ∃ positions, ∃ shapes : List ShapeElement, ∃ arrows : List ConnectorElement,
      d.positions s = .ok positions ∧
      elements = shapes.map .shape ++ arrows.map .connector ∧
      List.Forall₂ (Node.Draws s positions) d.nodes shapes ∧ (∀ a ∈ shapes, a.Exact (k + 1)) ∧
      (∀ c ∈ arrows, c.Links shapes) ∧
      ∀ c ∈ arrows, ∀ text, c.text = some text → ∃ e ∈ d.edges, e.label = some text := by
  obtain ⟨d', positions, htext', hpositions, hdrawn⟩ := exists_of_convert hconvert
  obtain rfl := Except.ok.inj (htext'.symm.trans htext)
  obtain ⟨shapes, arrows, helements, hshapes, harrows⟩ := exists_of_synthesize hdrawn
  have hclosed := Diagram.closed_of_ofText htext
  have hedge : ∀ c ∈ arrows, ∃ e ∈ d'.edges, e.Connects shapes c := by
    intro c hc
    obtain ⟨e, he, hjoins⟩ := exists_mem_of_forall₂ harrows.flip hc
    have hmem := (List.mem_filter.mp he).1
    exact ⟨e, hmem, hjoins.connects hclosed hshapes hmem⟩
  refine ⟨positions, shapes, arrows, hpositions, helements, hshapes, fun a ha => ?_, fun c hc => ?_,
    fun c hc text htext => ?_⟩
  · obtain ⟨node, hnode, hdraws⟩ := exists_mem_of_forall₂ hshapes.flip ha
    refine hdraws.exact h hn hpositions fun hnone => hfallback node hnode fun hreach => ?_
    rw [← Diagram.isSome_of?_iff_reaches hpositions, hnone] at hreach
    cases hreach
  · obtain ⟨e, -, hstart, hstop, -⟩ := hedge c hc
    exact ⟨hstart.imp fun a ha => ⟨ha.1, ha.2.2⟩, hstop.imp fun a ha => ⟨ha.1, ha.2.2⟩⟩
  · obtain ⟨e, he, -, -, hlabel⟩ := hedge c hc
    exact ⟨e, he, hlabel.symm.trans htext⟩

end Flowchart
