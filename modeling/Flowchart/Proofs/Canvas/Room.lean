import Flowchart.Proofs.Canvas.Preview
import Flowchart.Proofs.Element.Exact

/-! # Room on a canvas

An action completes on the canvases of a size if it ends well on each of them and leaves the size as
it is (`Canvas.Completes`).  A shape is drawn if its box lies within the canvas, and only then; a
connector is drawn on cells that are free, which lie on the canvas
(`Sketch.exists_addLine`).

The canvas of a drawing is high enough for every box.  It is wide enough when the right end of the
drawing lies in a column behind the first column of every shape, since a box has four columns at
least (`Frame.Bounds.exists_sketchOf_iff`).  Nodes of the width of a column are wide enough for
that, and narrower ones need not be (`exists_preview_of_convert`, `preview_eq_error_of_narrow`). -/

namespace Flowchart

/-- A box lies within a canvas of a size. -/
structure Box.Within (b : Box) (w h : Int) : Prop where
  left : 0 ≤ b.left
  top : 0 ≤ b.top
  right : b.right < w
  bottom : b.bottom < h

namespace Canvas

variable {α β : Type} {w h : Int}

/-! ### Actions that complete -/

/-- The canvases of a size. -/
structure Sized (w h : Int) (c : Canvas) : Prop where
  width : c.width = w
  height : c.height = h

theorem Sized.inside_iff {c : Canvas} (hc : c.Sized w h) {x y : Int} :
    c.Inside x y ↔ 0 ≤ y ∧ y < h ∧ 0 ≤ x ∧ x < w := by
  rw [Inside, hc.width, hc.height]

theorem Sized.update {c : Canvas} (hc : c.Sized w h) (x y : Int) (f : Cell → Cell) :
    (c.update x y f).Sized w h :=
  ⟨(width_update c x y f).trans hc.width, (height_update c x y f).trans hc.height⟩

theorem Sized.mark {c : Canvas} (hc : c.Sized w h) (x y : Int) (tag : String) (side : Side) :
    (c.mark x y tag side).Sized w h := by
  unfold Canvas.mark
  split
  · exact hc
  · exact hc.update x y _

/-- An action ends well on every canvas of a size, and keeps the size. -/
def Completes (w h : Int) (act : Action α) : Prop :=
  ∀ c, Sized w h c → ∃ a c', act.run c = .ok a c' ∧ c'.Sized w h

namespace Completes

theorem pure (a : α) : Completes w h (pure a) := fun c hc => ⟨a, c, EStateM.run_pure a c, hc⟩

theorem bind {act : Action α} {next : α → Action β} (hact : Completes w h act)
    (hnext : ∀ a, Completes w h (next a)) : Completes w h (act >>= next) := by
  intro c hc
  obtain ⟨a, c', hrun, hc'⟩ := hact c hc
  obtain ⟨b, c'', hrun', hc''⟩ := hnext a c' hc'
  refine ⟨b, c'', ?_, hc''⟩
  rw [EStateM.run_bind, hrun]
  exact hrun'

theorem composes (w h : Int) : Composes (Completes w h) := ⟨pure (), bind⟩

theorem of_modify {f : Canvas → Canvas} (hf : ∀ c, Sized w h c → (f c).Sized w h) :
    Completes w h (modify f) :=
  fun c hc => ⟨(), f c, EStateM.run_modify f c, hf c hc⟩

theorem put {x y : Int} (hin : 0 ≤ y ∧ y < h ∧ 0 ≤ x ∧ x < w) (glyph : String) (width : Nat) :
    Completes w h (put x y glyph width) := by
  intro c hc
  refine ⟨(), _, ?_, hc.update x y (Cell.holding glyph width)⟩
  rw [run_put, if_pos (hc.inside_iff.mpr hin)]

theorem drawGlyph {x y : Int} (hin : 0 ≤ y ∧ y < h ∧ 0 ≤ x ∧ x < w) (d : Char) :
    Completes w h (drawGlyph x y d) :=
  (put hin d.toString 1).bind fun _ => pure ()

theorem cover {y : Int} (count : Nat) (x : Int)
    (hin : ∀ x', x ≤ x' → x' < x + count → 0 ≤ y ∧ y < h ∧ 0 ≤ x' ∧ x' < w) :
    Completes w h (cover y count x) := by
  induction count generalizing x with
  | zero => exact pure ()
  | succ count ih =>
      refine (put (hin x (by omega) (by omega)) " " 0).bind fun _ => ?_
      exact ih (x + 1) fun x' hfirst hstop => hin x' (by omega) (by push_cast; omega)

theorem draw {x y : Int} {width : Nat} (hwidth : 1 ≤ width)
    (hin : ∀ x', x ≤ x' → x' < x + width → 0 ≤ y ∧ y < h ∧ 0 ≤ x' ∧ x' < w) (glyph : String) :
    Completes w h (draw x y glyph width) := by
  have hcells : (max (width : Int) 1).toNat = width := by omega
  unfold Canvas.draw
  dsimp only
  rw [hcells]
  refine (put (hin x (by omega) (by omega)) glyph width).bind fun _ => ?_
  exact cover (width - 1) (x + 1) fun x' hfirst hstop => hin x' (by omega) (by omega)

/-- A text is written if its cells lie on the canvas. -/
theorem writeChars [Text.Measure] {y : Int} (chars : List Char) (x : Int)
    (hin : ∀ x', x ≤ x' → x' < x + Text.width chars → 0 ≤ y ∧ y < h ∧ 0 ≤ x' ∧ x' < w) :
    Completes w h (writeChars y chars x) := by
  induction chars generalizing x with
  | nil => exact pure x
  | cons d chars ih =>
      rw [Text.width_cons] at hin
      push_cast at hin
      refine (draw (Text.one_le_charWidth d) ?_ d.toString).bind fun _ => ?_
      · exact fun x' hfirst hstop => hin x' hfirst (by omega)
      · exact ih _ fun x' hfirst hstop => hin x' (by omega) (by omega)

theorem drawLabelled [Text.Measure] (g : BoxGlyphs) {b : Box} (hb : b.Roomy) (hin : b.Within w h)
    (text tag : String) : Completes w h (drawLabelled g b text tag) := by
  obtain ⟨hleft, htop, hright, hbottom⟩ := hin
  obtain ⟨hfirst, hlast, habove, hbelow⟩ := hb.label_inside text
  have hbox : Completes w h (drawBox g b) := by
    refine (composes w h).drawBox hb fun d _ x y hplace => drawGlyph ?_ d
    rw [Box.contains_iff] at hplace
    omega
  unfold Canvas.drawLabelled
  refine hbox.bind fun _ => bind (writeChars _ _ fun x' hle hlt => ?_) fun stop => ?_
  · unfold Text.displayWidth at hlast
    omega
  · split
    · exact of_modify fun c hc => (hc.mark _ _ _ _).mark _ _ _ _
    · exact pure ()

theorem drawTrail (d : Char) {cells : List Place}
    (hin : ∀ p ∈ cells, 0 ≤ p.2 ∧ p.2 < h ∧ 0 ≤ p.1 ∧ p.1 < w) :
    Completes w h (drawTrail d cells) := by
  refine (composes w h).forM fun p hp => (drawGlyph (hin p hp) d).bind fun _ => ?_
  exact of_modify fun c hc => (hc.mark _ _ _ _).mark _ _ _ _

end Completes

/-! ### Boxes that do not fit -/

theorem sized_drawGlyph (x y : Int) (d : Char) :
    Triple (Sized w h) (drawGlyph x y d) fun _ => Sized w h :=
  Triple.drawGlyph fun _ hc _ => hc.update x y _

theorem sized_write [Text.Measure] (x y : Int) (text : String) :
    Triple (Sized w h) (write x y text) fun _ => Sized w h := by
  refine (Triple.write (P := fun _ => Sized w h) (G := fun _ => True) trivial ?_
    (fun _ _ => trivial) x (Int.le_refl _)).mono fun _ _ hc => hc.2
  exact fun x' glyph width _ _ => Triple.put fun _ hc _ => hc.update x' y _

theorem sized_drawLabelled [Text.Measure] (g : BoxGlyphs) {b : Box} (hb : b.Roomy)
    (text tag : String) :
    Triple (Sized w h) (drawLabelled g b text tag) fun _ => Sized w h :=
  triple_drawLabelled (fun _ x y tag side hc => hc.mark x y tag side) hb
    (fun d _ x y _ => sized_drawGlyph x y d) (sized_write _ _ _) tag

/-- A box that was drawn does not go beyond the canvas. -/
theorem right_lt_of_drawLabelled [Text.Measure] {g : BoxGlyphs} (hg : g.Inked) {b : Box}
    (hb : b.Roomy)
    (text tag : String) : Triple (fun c => c.Sound ∧ c.Sized w h) (drawLabelled g b text tag)
      fun _ _ => b.right < w := by
  obtain ⟨-, -, hrow⟩ := hb.label_inside text
  have hsized : Triple (Sized w h) (drawBox g b) fun _ => Sized w h :=
    triple_drawBox hb fun d _ x y _ => sized_drawGlyph x y d
  have hbox : Triple (fun c => c.Sound ∧ c.Sized w h) (drawBox g b) fun _ _ => b.right < w := by
    refine ((walled_drawBox hg hrow).and hsized).mono ?_
    rintro _ c ⟨hwalled, hsize⟩
    obtain ⟨cell, hcell, -⟩ := hwalled.ink _ List.mem_cons_self
    have hin : c.Inside b.right b.middle := (c.cell?_isSome_iff _ _).mp (by rw [hcell]; rfl)
    exact (hsize.inside_iff.mp hin).2.2.2
  unfold drawLabelled
  exact hbox.bind fun _ => fun _ _ _ hright _ => hright

end Canvas

/-! ### Sketches -/

namespace Sketch

open Canvas (Sized Completes)

variable {s s' : Sketch} {w h : Int} {ascii : Bool} {o : Origin}

theorem exists_perform {act : Canvas.Action Unit} (hs : s.canvas.Sized w h)
    (hact : Completes w h act) : ∃ s', s.perform act = .ok s' ∧ s'.canvas.Sized w h := by
  obtain ⟨canvas, boxes⟩ := s
  obtain ⟨a, c, hrun, hc⟩ := hact canvas hs
  refine ⟨⟨c, boxes⟩, ?_, hc⟩
  simp only [perform, hrun]

theorem exists_addShape [Text.Measure] {e : ShapeElement} {b : Box} (hs : s.canvas.Sized w h)
    (hbox : e.box o = .ok b) (hin : b.Within w h) :
    ∃ s', s.addShape ascii o e = .ok s' ∧ s'.canvas.Sized w h := by
  obtain ⟨s', hs', hsized⟩ := exists_perform hs
    (Completes.drawLabelled (e.glyphs ascii) (ShapeElement.roomy_of_box hbox) hin e.text e.kind.tag)
  exact ⟨_, bind_eq_ok (mapError_eq_ok hbox) (bind_eq_ok hs' rfl), hsized⟩

theorem inside_of_isFree {p : Place} (hfree : s.isFree p = true) : s.canvas.Inside p.1 p.2 := by
  have hblank := (Bool.and_eq_true_iff.mp hfree).1
  rw [← Canvas.cell?_isSome_iff]
  unfold Canvas.isBlank at hblank
  split at hblank
  · next hcell => rw [hcell]; rfl
  · cases hblank

theorem exists_addLabel [Text.Measure] (hs : s.canvas.Sized w h) (text : String)
    (stretch : List Place) :
    ∃ s', s.addLabel text stretch = .ok s' ∧ s'.canvas.Sized w h := by
  rw [addLabel_eq]
  split
  · next hfree =>
      refine exists_perform hs ((Completes.writeChars _ _ fun x hle hlt => ?_).bind
        fun _ => Completes.pure ())
      exact hs.inside_iff.mp (inside_of_isFree
        (List.all_eq_true.mp hfree (x, (labelPlace stretch).2)
          (mem_labelCells.mpr ⟨rfl, hle, hlt⟩)))
  · exact ⟨s, rfl, hs⟩

/-- A connector is drawn on free cells, and these lie on the canvas. -/
theorem exists_addLine [Text.Measure] (hs : s.canvas.Sized w h) (start stop : Place)
    (text : String) :
    ∃ s', s.addLine ascii start stop text = .ok s' ∧ s'.canvas.Sized w h := by
  have hin : ∀ p ∈ s.freeStretch (lineCells start stop),
      0 ≤ p.2 ∧ p.2 < h ∧ 0 ≤ p.1 ∧ p.1 < w :=
    fun p hp => hs.inside_iff.mp (inside_of_isFree (isFree_of_mem_freeStretch hp))
  simp only [addLine]
  split
  · exact ⟨s, rfl, hs⟩
  · next x y hlast =>
      obtain ⟨trail, htrail, htrailSized⟩ := exists_perform hs <|
        Completes.drawTrail (connectorGlyphs ascii).trail
          fun p hp => hin p (List.mem_of_mem_dropLast hp)
      obtain ⟨tip, htip, htipSized⟩ := exists_perform htrailSized <|
        Completes.drawGlyph (hin (x, y) (List.mem_of_getLast? hlast))
          ((connectorGlyphs ascii).tip (stop.1 - start.1) (stop.2 - start.2))
      by_cases htext : text = ""
      · exact ⟨tip, bind_eq_ok htrail (bind_eq_ok htip (if_pos htext)), htipSized⟩
      · obtain ⟨s', hs', hsized⟩ :=
          exists_addLabel htipSized text (s.freeStretch (lineCells start stop))
        exact ⟨s', bind_eq_ok htrail (bind_eq_ok htip ((if_neg htext).trans hs')), hsized⟩

end Sketch

/-! ### Drawings of exact shapes -/

namespace Frame.Bounds

open Canvas (Sized)

variable {k : Nat} {first e : ShapeElement} {others : List ShapeElement} {hull : Frame}
  {ascii : Bool} {s s' : Sketch} {w h : Int}

/-- The box of a shape lies within the canvas if a column of the drawing is behind its first one. -/
theorem within_iff (hb : hull.Bounds k first others) (he : e ∈ first :: others) :
    (hull.boxIn e.frame).Within hull.canvas.width hull.canvas.height ↔
      cellAt 10 (e.frame.left - hull.left) < cellAt 10 (hull.right - hull.left) := by
  rw [← right_boxIn_lt_iff (hb.le_right he)]
  refine ⟨fun hin => hin.right, fun hright => ⟨?_, ?_, hright, ?_⟩⟩
  · exact Int.le_trans (by decide) (one_le_cellAt 10 (sub_nonneg.mpr (hb.left_le he)))
  · exact Int.le_trans (by decide) (one_le_cellAt 20 (sub_nonneg.mpr (hb.top_le he)))
  · exact bottom_boxIn_lt (hb.exact e he).top_le_bottom (hb.le_bottom he)

theorem exists_addConnector [Text.Measure] (hb : hull.Bounds k first others) {c : ConnectorElement}
    (hc : c.Links (first :: others)) (hs : s.canvas.Sized w h) :
    ∃ s', s.addConnector ascii (originOf first others) c = .ok s' ∧ s'.canvas.Sized w h := by
  have hcells : ∀ {p : Point}, (∃ a ∈ first :: others, a.center = .ok p) →
      ∃ column row, cellOf p.x unitsPerColumn (originOf first others).x = .ok column ∧
        cellOf p.y unitsPerRow (originOf first others).y = .ok row := by
    rintro p ⟨a, ha, hcenter⟩
    obtain ⟨p', hcenter', hx, hy, hleft, htop⟩ := (hb.exact a ha).exists_center
    obtain rfl := Except.ok.inj (hcenter.symm.trans hcenter')
    exact ⟨_, _, hb.column_eq hx ((hb.left_le ha).trans hleft),
      hb.row_eq hy ((hb.top_le ha).trans htop)⟩
  obtain ⟨startX, startY, hstartX, hstartY⟩ := hcells hc.start
  obtain ⟨stopX, stopY, hstopX, hstopY⟩ := hcells hc.stop
  obtain ⟨s', hs', hsized⟩ :=
    Sketch.exists_addLine hs (startX, startY) (stopX, stopY) (c.text.getD "")
  exact ⟨s', bind_eq_ok (mapError_eq_ok hstartX) (bind_eq_ok (mapError_eq_ok hstartY)
    (bind_eq_ok (mapError_eq_ok hstopX) (bind_eq_ok (mapError_eq_ok hstopY) hs'))), hsized⟩

/-- A shape that was drawn has a column of the drawing behind its first one. -/
theorem lt_of_addShape [Text.Measure] (hb : hull.Bounds k first others) (he : e ∈ first :: others)
    (hsound : s.canvas.Sound) (hs : s.canvas.Sized hull.canvas.width hull.canvas.height)
    (hadd : s.addShape ascii (originOf first others) e = .ok s') :
    cellAt 10 (e.frame.left - hull.left) < cellAt 10 (hull.right - hull.left) := by
  obtain ⟨b, drawn, hbox, hdrawn, -⟩ := Sketch.exists_of_addShape hadd
  obtain rfl := Except.ok.inj ((hb.box_eq he).symm.trans hbox)
  refine (right_boxIn_lt_iff (hb.le_right he)).mp ?_
  exact Sketch.of_perform (I := fun _ => _)
    (Canvas.right_lt_of_drawLabelled (e.inked_glyphs ascii) (ShapeElement.roomy_of_box hbox) _ _)
    ⟨hsound, hs⟩ hdrawn

theorem sized_of_addShape [Text.Measure] {o : Origin} (hs : s.canvas.Sized w h)
    (hadd : s.addShape ascii o e = .ok s') : s'.canvas.Sized w h := by
  obtain ⟨b, drawn, hbox, hdrawn, rfl⟩ := Sketch.exists_of_addShape hadd
  have hroomy := ShapeElement.roomy_of_box hbox
  have hsized : drawn.canvas.Sized w h :=
    Sketch.of_perform (Canvas.sized_drawLabelled _ hroomy _ _) hs hdrawn
  exact hsized

/-- A drawing of exact shapes and connectors between them fits on its canvas exactly if every shape
has a column of the drawing behind its first one. -/
theorem exists_sketchOf_iff [Text.Measure] (hb : hull.Bounds k first others)
    {connectors : List ConnectorElement} (hlinks : ∀ c ∈ connectors, c.Links (first :: others))
    (ascii : Bool) :
    (∃ s, sketchOf ascii first others connectors = .ok s) ↔ ∀ e ∈ first :: others,
      cellAt 10 (e.frame.left - hull.left) < cellAt 10 (hull.right - hull.left) := by
  constructor
  -- The step that drew a shape has put a glyph in the right column of its box.
  · rintro ⟨s, hs⟩ e he
    obtain ⟨canvas, hcanvas, hs⟩ := exists_of_bind_eq_ok hs
    obtain ⟨drawn, hdrawn, -⟩ := exists_of_bind_eq_ok hs
    obtain rfl := Except.ok.inj (hb.canvasFor_eq.symm.trans (eq_ok_of_mapError_eq_ok hcanvas))
    have hkept : ∀ e ∈ first :: others, ∀ s s' : Sketch,
        s.canvas.Sound ∧ s.canvas.Sized hull.canvas.width hull.canvas.height →
        s.addShape ascii (originOf first others) e = .ok s' →
        s'.canvas.Sound ∧ s'.canvas.Sized hull.canvas.width hull.canvas.height :=
      fun e he s s' hs hadd => ⟨(Sketch.invariant_sound ascii (first :: others) []).of_addShape he
        hs.1 hadd, sized_of_addShape hs.2 hadd⟩
    obtain ⟨s, s', ⟨hsound, hsized⟩, hadd⟩ := exists_step_of_foldlM_eq_ok hkept
      ⟨Canvas.sound_empty _ _, rfl, rfl⟩ hdrawn e he
    exact hb.lt_of_addShape he hsound hsized hadd
  · intro hroom
    obtain ⟨drawn, hdrawn, hsized⟩ := exists_foldlM_eq_ok
      (P := fun s => s.canvas.Sized hull.canvas.width hull.canvas.height)
      (f := Sketch.addShape ascii (originOf first others)) (b := ⟨hull.canvas, []⟩)
      (fun e he s hs => Sketch.exists_addShape hs (hb.box_eq he)
        ((hb.within_iff he).mpr (hroom e he))) ⟨rfl, rfl⟩
    obtain ⟨s, hs, -⟩ := exists_foldlM_eq_ok
      (P := fun s => s.canvas.Sized hull.canvas.width hull.canvas.height)
      (f := Sketch.addConnector ascii (originOf first others)) (b := drawn)
      (fun c hc s hs => hb.exists_addConnector (hlinks c hc) hs) hsized
    exact ⟨s, bind_eq_ok (mapError_eq_ok hb.canvasFor_eq) (bind_eq_ok hdrawn hs)⟩

end Frame.Bounds

/-! ### Previews -/

section
variable {shapes : List ShapeElement} {arrows : List ConnectorElement}

theorem Element.filterMap_shape?_drawing : (shapes.map Element.shape ++
    arrows.map Element.connector).filterMap Element.shape? = shapes := by
  rw [List.filterMap_append, List.filterMap_map, List.filterMap_map]
  have hshapes : shapes.filterMap (Element.shape? ∘ Element.shape) = shapes := List.filterMap_some
  have harrows : arrows.filterMap (Element.shape? ∘ Element.connector) = [] :=
    List.filterMap_eq_nil_iff.mpr fun _ _ => rfl
  rw [hshapes, harrows, List.append_nil]

theorem Element.filterMap_connector?_drawing : (shapes.map Element.shape ++
    arrows.map Element.connector).filterMap Element.connector? = arrows := by
  rw [List.filterMap_append, List.filterMap_map, List.filterMap_map]
  have hshapes : shapes.filterMap (Element.connector? ∘ Element.shape) = [] :=
    List.filterMap_eq_nil_iff.mpr fun _ _ => rfl
  have harrows : arrows.filterMap (Element.connector? ∘ Element.connector) = arrows :=
    List.filterMap_some
  rw [hshapes, harrows, List.nil_append]

end

namespace Frame.Bounds

variable {k : Nat} {first e : ShapeElement} {others : List ShapeElement} {hull : Frame}

/-- A shape of the width of a column has a column of the drawing behind its first one. -/
theorem lt_of_wide (hb : hull.Bounds k first others) (he : e ∈ first :: others)
    (hwide : 10 ≤ e.width.value) :
    cellAt 10 (e.frame.left - hull.left) < cellAt 10 (hull.right - hull.left) := by
  have hright := hb.le_right he
  rw [ShapeElement.frame] at hright
  dsimp only at hright
  refine Int.add_one_le_iff.mp (cellAt_add_le (show 0 < 10 by decide) 1 ?_)
  rw [ShapeElement.frame]
  push_cast
  linarith

/-- A drawing of exact shapes and connectors between them has a preview exactly if every shape has a
column of the drawing behind its first one. -/
theorem exists_preview_iff [Text.Measure] (hb : hull.Bounds k first others)
    {arrows : List ConnectorElement} (hlinks : ∀ c ∈ arrows, c.Links (first :: others))
    (style : String) (marked : Bool) :
    (∃ shown, preview ((first :: others).map .shape ++ arrows.map .connector) style marked =
      .ok shown) ↔ ∀ e ∈ first :: others,
        cellAt 10 (e.frame.left - hull.left) < cellAt 10 (hull.right - hull.left) := by
  rw [← hb.exists_sketchOf_iff hlinks (BoxGlyphs.isAsciiName style)]
  simp only [preview_eq_ok_iff Element.filterMap_shape?_drawing,
    Element.filterMap_connector?_drawing]
  exact ⟨fun ⟨_, s, hs, _⟩ => ⟨s, hs⟩, fun ⟨s, hs⟩ => ⟨_, s, hs, rfl⟩⟩

end Frame.Bounds

/-- **Room for a preview.**  Let a text be converted with valid settings and without rounding.  If
nodes are at least as wide as a column, every preview of the elements is made.  In general it is
made exactly if every shape has a column of the drawing behind its first one; otherwise a box, which
has four columns at least, does not fit. -/
theorem exists_preview_of_convert [Text.Measure] {σ : Type} {g : Generator σ} {state state' : σ}
    {text : String} {s : Settings} {elements : List Element} {d : Diagram} {k : Nat}
    (htext : Diagram.ofText text = .ok d)
    (hconvert : convert text s g state = .ok (elements, state')) (hvalid : s.fault? = none)
    (hfine : k < 1074) (hfinite : s.Finite) (hwhole : ∀ field, OnGrid k (s.get field).value)
    (hsmall : (s.extent (d.nodes.length + d.edges.length + 1) + |s.fallbackX.value| +
      |s.fallbackY.value|) * 2 ^ k < 2 ^ 51) (style : String) (marked : Bool) :
    (10 ≤ s.nodeWidth.value → ∃ shown, preview elements style marked = .ok shown) ∧
    ∃ left right, IsLeast {q | ∃ e, .shape e ∈ elements ∧ e.frame.left = q} left ∧
      IsGreatest {q | ∃ e, .shape e ∈ elements ∧ e.frame.right = q} right ∧
      ((∃ shown, preview elements style marked = .ok shown) ↔ ∀ e, .shape e ∈ elements →
        cellAt 10 (e.frame.left - left) < cellAt 10 (right - left)) := by
  have hproper := Settings.proper_of_fault?_eq_none hvalid hfinite
  have hpos : 0 < d.nodes.length + d.edges.length + 1 := by omega
  have hfallbackX := abs_nonneg s.fallbackX.value
  have hfallbackY := abs_nonneg s.fallbackY.value
  have hwidth : s.nodeWidth.value ≤ s.extent (d.nodes.length + d.edges.length + 1) :=
    (hproper.setting_le_extent hpos .nodeWidth (by decide)).2
  have hheight : s.nodeHeight.value ≤ s.extent (d.nodes.length + d.edges.length + 1) :=
    (hproper.setting_le_extent hpos .nodeHeight (by decide)).2
  have hdraws : s.Draws k (d.nodes.length + d.edges.length + 1) _ :=
    ⟨hfine, hfinite, hwhole, hproper, by linarith, hsmall⟩
  obtain ⟨positions, shapes, arrows, -, rfl, hshapes, hexact, hlinks, -⟩ :=
    exists_exact_of_convert htext hconvert hdraws (by omega) fun node _ _ =>
      ⟨by linarith, by linarith⟩
  have hmem : ∀ e, Element.shape e ∈ shapes.map Element.shape ++ arrows.map Element.connector ↔
      e ∈ shapes := by simp
  simp only [hmem]
  cases shapes with
  | nil =>
      have hnone := List.forall₂_nil_right_iff.mp hshapes
      exact absurd hnone (Diagram.nodes_ne_nil_of_ofText htext)
  | cons first others =>
      obtain ⟨hull, hb⟩ := Frame.exists_bounds hexact
      have hiff := hb.exists_preview_iff hlinks style marked
      refine ⟨fun hwide => hiff.mpr fun e he => hb.lt_of_wide he ?_,
        hull.left, hull.right, hb.isLeast_left, hb.isGreatest_right, hiff⟩
      obtain ⟨node, -, hdraws⟩ := exists_mem_of_forall₂ hshapes.flip he
      rwa [hdraws.width]

/-- Settings with fractions, narrow gaps and a fallback point left of everything. -/
def slimSettings : Settings where
  nodeWidth := .real (.finite (25 / 2))
  nodeHeight := 5
  levelHeight := 5
  horizontalGap := .real (.finite (1 / 2))
  canvasWidth := 1
  topMargin := 0
  minMargin := 0
  fallbackX := .int (-30)
  fallbackY := 7

/-- Nodes of the width of a column and a quarter, one of them at the fallback point. -/
theorem exists_preview_of_convert_slim : slimSettings.fault? = none ∧ slimSettings.Finite ∧
    (∀ field, OnGrid 1 (slimSettings.get field).value) ∧ 10 ≤ slimSettings.nodeWidth.value ∧
    ∃ d elements state', Diagram.ofText sketch = .ok d ∧
      convert sketch slimSettings (.progression 7) 0 = .ok (elements, state') ∧
      (slimSettings.extent (d.nodes.length + d.edges.length + 1) +
        |slimSettings.fallbackX.value| + |slimSettings.fallbackY.value|) * 2 ^ 1 < 2 ^ 51 ∧
      ∃ shown, preview elements "ascii" true = .ok shown := by
  have hvalid : slimSettings.fault? = none := by decide +kernel
  have hfinite : slimSettings.Finite := by
    intro field
    cases field <;> rfl
  have hwhole : ∀ field, OnGrid 1 (slimSettings.get field).value := by
    intro field
    cases field with
    | nodeWidth => exact ⟨25, by decide +kernel⟩
    | horizontalGap => exact ⟨1, by decide +kernel⟩
    | _ => exact .intCast 1 _
  have hwide : 10 ≤ slimSettings.nodeWidth.value := by decide +kernel
  have hdrawn : (fun d => decide ((slimSettings.extent (d.nodes.length + d.edges.length + 1) +
      |slimSettings.fallbackX.value| + |slimSettings.fallbackY.value|) * 2 ^ 1 < 2 ^ 51)) <$>
      Diagram.ofText sketch = .ok true := by
    decide +kernel
  have hconverted : (fun _ => ()) <$> convert sketch slimSettings (.progression 7) 0 = .ok () := by
    decide +kernel
  obtain ⟨d, htext, hsmall⟩ := exists_of_map_eq_ok hdrawn
  obtain ⟨⟨elements, state'⟩, hconvert, -⟩ := exists_of_map_eq_ok hconverted
  have hsmall := of_decide_eq_true hsmall
  exact ⟨hvalid, hfinite, hwhole, hwide, d, elements, state', htext, hconvert, hsmall,
    (exists_preview_of_convert htext hconvert hvalid (by decide) hfinite hwhole hsmall "ascii"
      true).1 hwide⟩

/-- Settings with nodes that are narrower than a column. -/
def narrowSettings : Settings := { Settings.standard with nodeWidth := 5 }

/-- A valid drawing whose box goes beyond its canvas. -/
theorem preview_eq_error_of_narrow : narrowSettings.fault? = none ∧
    ∃ elements state', convert "graph TD\nA[A]" narrowSettings (.progression 7) 0 =
      .ok (elements, state') ∧
      preview elements "unicode" false = .error (.overflow ⟨4, 2, 4, 7⟩) := by
  have hdrawn : (fun drawn => preview drawn.1 "unicode" false) <$>
      convert "graph TD\nA[A]" narrowSettings (.progression 7) 0 =
        .ok (.error (.overflow ⟨4, 2, 4, 7⟩)) := by
    decide +kernel
  obtain ⟨⟨elements, state'⟩, hconvert, hpreview⟩ := exists_of_map_eq_ok hdrawn
  exact ⟨by decide, elements, state', hconvert, hpreview⟩

end Flowchart
