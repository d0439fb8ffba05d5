import Mathlib.Data.List.TakeWhile
import Flowchart.Proofs.Canvas.Action
import Flowchart.Proofs.Fallible
import Flowchart.Proofs.Text.Fit

/-! # Invariants of sketches

A sketch starts on an empty canvas; then shapes are drawn, and after them connectors.  What a step
can do is said once: a shape is drawn with its label (`Sketch.exists_of_addShape`), and a connector
has a trail and a tip (`Sketch.cases_of_addLine`) and a label (`Sketch.cases_of_addLabel`) on free
cells.  What holds of empty canvases and is kept by each of these holds of the canvas of every
sketch (`Sketch.Invariant.of_sketchOf`).

What glyphs keep is kept by boxes (`Canvas.triple_drawBox`); if tags keep it as well, by boxes with
a label and by trails (`Canvas.triple_drawLabelled`, `Canvas.triple_drawTrail`). -/

namespace Flowchart

namespace BoxGlyphs

/-- All glyphs of a style. -/
def toList (g : BoxGlyphs) : List Char :=
  [g.topLeft, g.topRight, g.bottomLeft, g.bottomRight, g.horizontal, g.vertical, g.trail,
    g.arrowDown, g.arrowRight, g.arrowLeft, g.arrowUp]

theorem tip_mem_toList (g : BoxGlyphs) (dx dy : Int) : g.tip dx dy ∈ g.toList := by
  unfold tip
  split <;> split <;> simp [toList]

theorem of_mem_toList {styles : List BoxGlyphs} {p : Char → Bool}
    (hall : (styles.flatMap toList).all p = true) {g : BoxGlyphs} (hg : g ∈ styles) :
    ∀ d ∈ g.toList, p d = true :=
  fun d hd => List.all_eq_true.mp hall d (List.mem_flatMap.mpr ⟨g, hg, hd⟩)

end BoxGlyphs

theorem mem_between {first stop i : Int} : i ∈ between first stop ↔ first < i ∧ i < stop := by
  rw [between, List.mem_map]
  constructor
  · rintro ⟨k, hk, rfl⟩
    have := List.mem_range.mp hk
    omega
  · intro ⟨hfirst, hstop⟩
    exact ⟨(i - first - 1).toNat, List.mem_range.mpr (by omega), by omega⟩

namespace Canvas

/-- Draws the two edges of a box in one row and clears what is between them. -/
def drawRow (g : BoxGlyphs) (b : Box) (y : Int) : Action Unit := do
  drawGlyph b.left y g.vertical
  drawGlyph b.right y g.vertical
  (between b.left b.right).forM fun x => drawGlyph x y ' '

theorem drawBox_eq (g : BoxGlyphs) (b : Box) : drawBox g b = (do
    (between b.left b.right).forM fun x => do
      drawGlyph x b.top g.horizontal
      drawGlyph x b.bottom g.horizontal
    (between b.top b.bottom).forM (drawRow g b)
    drawGlyph b.left b.top g.topLeft
    drawGlyph b.right b.top g.topRight
    drawGlyph b.left b.bottom g.bottomLeft
    drawGlyph b.right b.bottom g.bottomRight) :=
  rfl

/-- The cells of a row from `first` up to `stop` are blank. -/
def BlankFrom (y first stop : Int) (c : Canvas) : Prop :=
  ∀ x, first ≤ x → x < stop → c.isBlank x y = true

end Canvas

/-- A box has room for a label. -/
structure Box.Roomy (b : Box) : Prop where
  wide : b.left + 3 ≤ b.right
  high : b.top + 2 ≤ b.bottom

theorem Box.contains_iff {b : Box} {x y : Int} : b.contains (x, y) = true ↔
    b.left ≤ x ∧ x ≤ b.right ∧ b.top ≤ y ∧ y ≤ b.bottom := by
  simp only [contains, Bool.and_eq_true, decide_eq_true_eq, and_assoc]

/-- No place lies in both of two boxes. -/
def Box.Disjoint (a b : Box) : Prop := ∀ p, ¬ (a.contains p = true ∧ b.contains p = true)

theorem Box.disjoint_iff {a b : Box} : a.Disjoint b ↔
    min a.right b.right < max a.left b.left ∨ min a.bottom b.bottom < max a.top b.top := by
  constructor
  · intro h
    have hcorner := h (max a.left b.left, max a.top b.top)
    rw [Box.contains_iff, Box.contains_iff] at hcorner
    omega
  · rintro h ⟨x, y⟩ ⟨hin, hin'⟩
    rw [Box.contains_iff] at hin hin'
    omega

instance (a b : Box) : Decidable (a.Disjoint b) := decidable_of_iff _ Box.disjoint_iff.symm

namespace Canvas

/-- What holds of every glyph within a box holds of the box. -/
theorem Composes.drawBox {R : Action Unit → Prop} (hR : Composes R) {g : BoxGlyphs} {b : Box}
    (hb : b.Roomy)
    (h : ∀ d ∈ ' ' :: g.toList, ∀ x y, b.contains (x, y) = true → R (drawGlyph x y d)) :
    R (drawBox g b) := by
  obtain ⟨hwide, hhigh⟩ := hb
  have hglyph : ∀ d ∈ g.toList, ∀ x y, b.left ≤ x ∧ x ≤ b.right ∧ b.top ≤ y ∧ y ≤ b.bottom →
      R (drawGlyph x y d) :=
    fun d hd x y hplace => h d (List.mem_cons_of_mem _ hd) x y (Box.contains_iff.mpr hplace)
  have hedges : ∀ x ∈ between b.left b.right, R (do
      drawGlyph x b.top g.horizontal
      drawGlyph x b.bottom g.horizontal) := by
    intro x hx
    obtain ⟨hleft, hright⟩ := mem_between.mp hx
    refine hR.bind (hglyph g.horizontal (by simp [BoxGlyphs.toList]) _ _ (by omega)) fun _ => ?_
    exact hglyph g.horizontal (by simp [BoxGlyphs.toList]) _ _ (by omega)
  have hrows : ∀ y ∈ between b.top b.bottom, R (drawRow g b y) := by
    intro y hy
    obtain ⟨htop, hbottom⟩ := mem_between.mp hy
    refine hR.bind (hglyph g.vertical (by simp [BoxGlyphs.toList]) _ _ (by omega)) fun _ => ?_
    refine hR.bind (hglyph g.vertical (by simp [BoxGlyphs.toList]) _ _ (by omega)) fun _ => ?_
    refine hR.forM fun x hx => ?_
    obtain ⟨hleft, hright⟩ := mem_between.mp hx
    exact h ' ' List.mem_cons_self x y (Box.contains_iff.mpr (by omega))
  rw [drawBox_eq]
  refine hR.bind (hR.forM hedges) fun _ => hR.bind (hR.forM hrows) fun _ => ?_
  refine hR.bind (hglyph g.topLeft (by simp [BoxGlyphs.toList]) _ _ (by omega)) fun _ => ?_
  refine hR.bind (hglyph g.topRight (by simp [BoxGlyphs.toList]) _ _ (by omega)) fun _ => ?_
  refine hR.bind (hglyph g.bottomLeft (by simp [BoxGlyphs.toList]) _ _ (by omega)) fun _ => ?_
  exact hglyph g.bottomRight (by simp [BoxGlyphs.toList]) _ _ (by omega)

/-- What every glyph within a box keeps is kept by the box. -/
theorem triple_drawBox {P : Canvas → Prop} {g : BoxGlyphs} {b : Box} (hb : b.Roomy)
    (h : ∀ d ∈ ' ' :: g.toList, ∀ x y, b.contains (x, y) = true →
      Triple P (drawGlyph x y d) fun _ => P) : Triple P (drawBox g b) fun _ => P :=
  (Triple.composes P).drawBox hb h

section marks
variable {P : Canvas → Prop} (hmark : ∀ c x y tag side, P c → P (c.mark x y tag side))
include hmark

/-- What every glyph within a box and its label keep is kept by both, if tags keep it as well. -/
theorem triple_drawLabelled [Text.Measure] {g : BoxGlyphs} {b : Box} (hb : b.Roomy) {text : String}
    (hglyph : ∀ d ∈ ' ' :: g.toList, ∀ x y, b.contains (x, y) = true →
      Triple P (drawGlyph x y d) fun _ => P)
    (hwrite : Triple P (write (b.labelColumn (Text.fitText text b.innerWidth)) b.middle
      (Text.fitText text b.innerWidth)) fun _ => P) (tag : String) :
    Triple P (drawLabelled g b text tag) fun _ => P := by
  unfold drawLabelled
  refine (triple_drawBox hb hglyph).bind fun _ => hwrite.bind fun stop => ?_
  split
  · exact Triple.of_modify fun c hc => hmark _ _ _ _ _ (hmark _ _ _ _ _ hc)
  · exact Triple.pure (Q := fun _ => P) ()

theorem triple_drawTrail {d : Char} {cells : List Place}
    (hglyph : ∀ p ∈ cells, Triple P (drawGlyph p.1 p.2 d) fun _ => P) :
    Triple P (drawTrail d cells) fun _ => P := by
  refine Triple.forM fun p hp => (hglyph p hp).bind fun _ => ?_
  exact Triple.of_modify fun c hc => hmark _ _ _ _ _ (hmark _ _ _ _ _ hc)

end marks

end Canvas

theorem Box.Roomy.label_inside [Text.Measure] {b : Box} (h : b.Roomy) (text : String) :
    b.left < b.labelColumn (Text.fitText text b.innerWidth) ∧
      b.labelColumn (Text.fitText text b.innerWidth) +
        Text.displayWidth (Text.fitText text b.innerWidth) ≤ b.right ∧
      b.top < b.middle ∧ b.middle < b.bottom := by
  obtain ⟨hwide, hhigh⟩ := h
  have hinner : 0 ≤ b.innerWidth := by
    unfold innerWidth
    omega
  have hfit := Text.displayWidth_fitText_le text hinner
  unfold labelColumn middle
  unfold innerWidth at hfit ⊢
  omega

theorem ShapeElement.roomy_of_box {e : ShapeElement} {o : Origin} {b : Box} (h : e.box o = .ok b) :
    b.Roomy := by
  obtain ⟨left, -, h⟩ := exists_of_bind_eq_ok h
  obtain ⟨top, -, h⟩ := exists_of_bind_eq_ok h
  obtain ⟨last, -, h⟩ := exists_of_bind_eq_ok h
  obtain ⟨column, -, h⟩ := exists_of_bind_eq_ok h
  obtain ⟨lowest, -, h⟩ := exists_of_bind_eq_ok h
  obtain ⟨row, -, h⟩ := exists_of_bind_eq_ok h
  obtain rfl := Except.ok.inj h
  exact ⟨Int.le_max_right _ _, Int.le_max_right _ _⟩

def ConnectorElement.ends (e : ConnectorElement) (o : Origin) :
    Except ArithmeticError (Place × Place) := do
  let startX ← cellOf e.start.x unitsPerColumn o.x
  let startY ← cellOf e.start.y unitsPerRow o.y
  let stopX ← cellOf e.stop.x unitsPerColumn o.x
  let stopY ← cellOf e.stop.y unitsPerRow o.y
  return ((startX, startY), (stopX, stopY))

namespace Sketch

open Canvas (Triple)

/-- A property of canvases that every step of a sketch keeps. -/
structure Invariant [Text.Measure] (ascii : Bool) (shapes : List ShapeElement)
    (connectors : List ConnectorElement) (I : Canvas → Prop) : Prop where
  empty : ∀ width height, I (.empty width height)
  shape : ∀ e ∈ shapes, ∀ b : Box, b.Roomy →
    Triple I (Canvas.drawLabelled (e.glyphs ascii) b e.text e.kind.tag) fun _ => I
  trail : ∀ cells, Triple I (Canvas.drawTrail (connectorGlyphs ascii).trail cells) fun _ => I
  tip : ∀ d ∈ (connectorGlyphs ascii).toList, ∀ x y, Triple I (Canvas.drawGlyph x y d) fun _ => I
  label : ∀ e ∈ connectors, ∀ text, e.text = some text → ∀ x y,
    Triple
      (fun c => I c ∧ c.BlankFrom y x (x + Text.displayWidth (Text.fitText text labelLimit)))
      (Canvas.write x y (Text.fitText text labelLimit)) fun _ => I

variable {s s' : Sketch} {ascii : Bool} {o : Origin} {shapes : List ShapeElement}
  {connectors : List ConnectorElement} {I P : Canvas → Prop}

theorem of_perform {act : Canvas.Action Unit} (hact : Triple P act fun _ => I) (hP : P s.canvas)
    (h : s.perform act = .ok s') : I s'.canvas := by
  obtain ⟨canvas, boxes⟩ := s
  simp only [perform] at h
  split at h
  · next c hrun =>
      obtain rfl := Except.ok.inj h
      exact hact _ _ _ hP hrun
  · cases h

/-! ### What a step does -/

/-- A shape is drawn with its label, and its box is one more box. -/
theorem exists_of_addShape [Text.Measure] {e : ShapeElement} (h : s.addShape ascii o e = .ok s') :
    ∃ b next, e.box o = .ok b ∧
      s.perform (Canvas.drawLabelled (e.glyphs ascii) b e.text e.kind.tag) = .ok next ∧
      s' = { next with boxes := next.boxes ++ [b] } := by
  obtain ⟨b, hbox, h⟩ := exists_of_bind_eq_ok h
  obtain ⟨next, hnext, h⟩ := exists_of_bind_eq_ok h
  exact ⟨b, next, eq_ok_of_mapError_eq_ok hbox, hnext, (Except.ok.inj h).symm⟩

theorem isFree_of_mem_freeStretch {line : List Place} {p : Place}
    (hp : p ∈ s.freeStretch line) : s.isFree p = true :=
  List.mem_takeWhile_imp hp

/-- The place where the label of a connector begins, beside the middle of its stretch. -/
def labelPlace (stretch : List Place) : Place :=
  ((stretch.getD (stretch.length / 2) (0, 0)).1 + 1, (stretch.getD (stretch.length / 2) (0, 0)).2)

/-- The cells that the label of a connector may take. -/
def labelCells [Text.Measure] (text : String) (stretch : List Place) : List Place :=
  (List.range (Text.displayWidth (Text.fitText text labelLimit))).map fun (i : Nat) =>
    ((labelPlace stretch).1 + (i : Int), (labelPlace stretch).2)

theorem mem_labelCells [Text.Measure] {text : String} {stretch : List Place} {p : Place} :
    p ∈ labelCells text stretch ↔ p.2 = (labelPlace stretch).2 ∧ (labelPlace stretch).1 ≤ p.1 ∧
      p.1 < (labelPlace stretch).1 + Text.displayWidth (Text.fitText text labelLimit) := by
  rw [labelCells, List.mem_map]
  constructor
  · rintro ⟨i, hi, rfl⟩
    have := List.mem_range.mp hi
    exact ⟨rfl, by dsimp only; omega⟩
  · rintro ⟨hrow, hle, hlt⟩
    refine ⟨(p.1 - (labelPlace stretch).1).toNat, List.mem_range.mpr (by omega), ?_⟩
    exact Prod.ext (by dsimp only; omega) hrow.symm

theorem addLabel_eq [Text.Measure] (s : Sketch) (text : String) (stretch : List Place) :
    s.addLabel text stretch =
      if (labelCells text stretch).all s.isFree then
        s.perform (do
          let _ ← Canvas.write (labelPlace stretch).1 (labelPlace stretch).2
            (Text.fitText text labelLimit))
      else .ok s := rfl

/-- A label is written if all cells that it takes are free, and left out otherwise. -/
theorem cases_of_addLabel [Text.Measure] {text : String} {stretch : List Place}
    (h : s.addLabel text stretch = .ok s') :
    (∃ p ∈ labelCells text stretch, s.isFree p = false) ∧ s' = s ∨
      (∀ p ∈ labelCells text stretch, s.isFree p = true) ∧
        s.perform (do
          let _ ← Canvas.write (labelPlace stretch).1 (labelPlace stretch).2
            (Text.fitText text labelLimit)) = .ok s' := by
  rw [addLabel_eq] at h
  split at h
  · next hfree => exact .inr ⟨List.all_eq_true.mp hfree, h⟩
  · next hfree =>
      rw [List.all_eq_true] at hfree
      push Not at hfree
      refine .inl ⟨?_, (Except.ok.inj h).symm⟩
      simpa using hfree

/-- A connector has a trail, a tip and, if it has a text, a label; without a free stretch it is left
out. -/
theorem cases_of_addLine [Text.Measure] {start stop : Place} {text : String}
    (h : s.addLine ascii start stop text = .ok s') :
    s.freeStretch (lineCells start stop) = [] ∧ s' = s ∨
      ∃ x y trail tip, (s.freeStretch (lineCells start stop)).getLast? = some (x, y) ∧
        s.perform (Canvas.drawTrail (connectorGlyphs ascii).trail
          (s.freeStretch (lineCells start stop)).dropLast) = .ok trail ∧
        trail.perform (Canvas.drawGlyph x y
          ((connectorGlyphs ascii).tip (stop.1 - start.1) (stop.2 - start.2))) = .ok tip ∧
        (text = "" ∧ s' = tip ∨
          text ≠ "" ∧ tip.addLabel text (s.freeStretch (lineCells start stop)) = .ok s') := by
  simp only [addLine] at h
  split at h
  · next hlast => exact .inl ⟨List.getLast?_eq_none_iff.mp hlast, (Except.ok.inj h).symm⟩
  · next x y hlast =>
      obtain ⟨trail, htrail, h⟩ := exists_of_bind_eq_ok h
      obtain ⟨tip, htip, h⟩ := exists_of_bind_eq_ok h
      refine .inr ⟨x, y, trail, tip, hlast, htrail, htip, ?_⟩
      split at h
      · next heq => exact .inl ⟨heq, (Except.ok.inj h).symm⟩
      · next hne => exact .inr ⟨hne, h⟩

theorem exists_of_addConnector [Text.Measure] {e : ConnectorElement}
    (h : s.addConnector ascii o e = .ok s') :
    ∃ start stop, e.ends o = .ok (start, stop) ∧
      s.addLine ascii start stop (e.text.getD "") = .ok s' := by
  obtain ⟨startX, hstartX, h⟩ := exists_of_bind_eq_ok h
  obtain ⟨startY, hstartY, h⟩ := exists_of_bind_eq_ok h
  obtain ⟨stopX, hstopX, h⟩ := exists_of_bind_eq_ok h
  obtain ⟨stopY, hstopY, h⟩ := exists_of_bind_eq_ok h
  exact ⟨_, _, bind_eq_ok (eq_ok_of_mapError_eq_ok hstartX)
    (bind_eq_ok (eq_ok_of_mapError_eq_ok hstartY) (bind_eq_ok (eq_ok_of_mapError_eq_ok hstopX)
      (bind_eq_ok (eq_ok_of_mapError_eq_ok hstopY) rfl))), h⟩

/-! ### Runs -/

namespace Invariant

theorem of_addShape [Text.Measure] (h : Invariant ascii shapes connectors I) {e : ShapeElement}
    (he : e ∈ shapes)
    (hs : I s.canvas) (hadd : s.addShape ascii o e = .ok s') : I s'.canvas := by
  obtain ⟨b, next, hbox, hnext, rfl⟩ := exists_of_addShape hadd
  have hroomy := ShapeElement.roomy_of_box hbox
  have hcanvas : I next.canvas := of_perform (h.shape e he b hroomy) hs hnext
  exact hcanvas

theorem of_addLabel [Text.Measure] (h : Invariant ascii shapes connectors I) {e : ConnectorElement}
    (he : e ∈ connectors) {text : String} (htext : e.text = some text) {stretch : List Place}
    (hs : I s.canvas) (hadd : s.addLabel text stretch = .ok s') : I s'.canvas := by
  rcases cases_of_addLabel hadd with ⟨-, rfl⟩ | ⟨hfree, hwrite⟩
  · exact hs
  · have hblank : s.canvas.BlankFrom (labelPlace stretch).2 (labelPlace stretch).1
        ((labelPlace stretch).1 + Text.displayWidth (Text.fitText text labelLimit)) :=
      fun x hle hlt => (Bool.and_eq_true_iff.mp
        (hfree (x, (labelPlace stretch).2) (mem_labelCells.mpr ⟨rfl, hle, hlt⟩))).1
    refine of_perform ((h.label e he text htext _ _).bind fun _ => ?_) ⟨hs, hblank⟩ hwrite
    exact .pure (Q := fun _ => I) ()

theorem of_addLine [Text.Measure] (h : Invariant ascii shapes connectors I) {e : ConnectorElement}
    (he : e ∈ connectors) {start stop : Place} (hs : I s.canvas)
    (hadd : s.addLine ascii start stop (e.text.getD "") = .ok s') : I s'.canvas := by
  rcases cases_of_addLine hadd with ⟨-, rfl⟩ | ⟨x, y, trail, tip, -, htrail, htip, hlabel⟩
  · exact hs
  · have htrail : I trail.canvas := of_perform (h.trail _) hs htrail
    have htip : I tip.canvas :=
      of_perform (h.tip _ (BoxGlyphs.tip_mem_toList _ _ _) x y) htrail htip
    rcases hlabel with ⟨-, rfl⟩ | ⟨hne, hlabel⟩
    · exact htip
    · have htext : e.text = some (e.text.getD "") := by
        cases htext : e.text with
        | none => exact absurd (by rw [htext]; rfl) hne
        | some text => rfl
      exact h.of_addLabel he htext htip hlabel

theorem of_addConnector [Text.Measure] (h : Invariant ascii shapes connectors I)
    {e : ConnectorElement} (he : e ∈ connectors) (hs : I s.canvas)
    (hadd : s.addConnector ascii o e = .ok s') :
    I s'.canvas := by
  obtain ⟨start, stop, -, hadd⟩ := exists_of_addConnector hadd
  exact h.of_addLine he hs hadd

theorem of_canvasFor [Text.Measure] (h : Invariant ascii shapes connectors I) {first : ShapeElement}
    {others : List ShapeElement} {c : Canvas} (hc : canvasFor o first others = .ok c) : I c := by
  obtain ⟨right, -, hc⟩ := exists_of_bind_eq_ok hc
  obtain ⟨rights, -, hc⟩ := exists_of_bind_eq_ok hc
  obtain ⟨bottom, -, hc⟩ := exists_of_bind_eq_ok hc
  obtain ⟨bottoms, -, hc⟩ := exists_of_bind_eq_ok hc
  obtain ⟨columns, -, hc⟩ := exists_of_bind_eq_ok hc
  obtain ⟨rows, -, hc⟩ := exists_of_bind_eq_ok hc
  obtain rfl := Except.ok.inj hc
  exact h.empty _ _

/-- What every step keeps holds of the canvas of a sketch. -/
theorem of_sketchOf [Text.Measure] {first : ShapeElement} {others : List ShapeElement}
    (h : Invariant ascii (first :: others) connectors I)
    (hs : sketchOf ascii first others connectors = .ok s) : I s.canvas := by
  obtain ⟨canvas, hcanvas, hs⟩ := exists_of_bind_eq_ok hs
  obtain ⟨drawn, hdrawn, hs⟩ := exists_of_bind_eq_ok hs
  have hempty : I canvas := h.of_canvasFor (eq_ok_of_mapError_eq_ok hcanvas)
  have hshapes : I drawn.canvas :=
    of_foldlM_eq_ok (P := fun s => I s.canvas)
      (fun e he s s' hs hadd => h.of_addShape he hs hadd) hempty hdrawn
  exact of_foldlM_eq_ok (P := fun s => I s.canvas)
    (fun e he s s' hs hadd => h.of_addConnector he hs hadd) hshapes hs

end Invariant

end Sketch

end Flowchart
