import Mathlib.Data.List.Perm.Basic
import Flowchart.Proofs.Canvas.Confined
import Flowchart.Proofs.Canvas.Retained
import Flowchart.Proofs.Number.Exact

/-! # Rearranged drawings

Shapes whose boxes have no cell in common can be drawn in any order, since each of them is confined
to its box (`Sketch.exists_foldlM_addShape_of_perm`).  The connectors see the same canvas and the
same boxes then, in another order (`Sketch.Alike`).

The origin of a drawing and its canvas belong to all shapes.  The origin does not depend on their
order if the corners are integers (`originOfShapes_eq_of_perm`).  The canvas is measured at the
first of the greatest ends, and ends of one value need not lie in one cell: the offset of an integer
is exact, that of a floating end is rounded (`not_preview_eq_of_perm`).  So the greatest ends have
to agree on the cell (`LevelEnds`), as integers do; then the preview is the same
(`preview_eq_of_perm`). -/

namespace Flowchart

/-! ### Numbers that have a cell -/

namespace Binary64

variable {v : Binary64}

theorem value?_sub_eq_none (h : v.value? = none) (w : Binary64) : (v.sub w).value? = none := by
  unfold sub
  cases v with
  | finite q => cases h
  | negativeZero => cases h
  | nan => rfl
  | infinite s =>
      cases w.neg with
      | infinite t =>
          simp only [add]
          split <;> rfl
      | _ => rfl

theorem floorDiv_eq_nan (h : v.value? = none) (w : Binary64) : v.floorDiv w = nan := by
  cases v <;> cases w <;> simp_all [value?, floorDiv]

end Binary64

theorem exists_is_of_cellOf {x : Number} {units o cell : Int}
    (h : cellOf x (.int units) (.int o) = .ok cell) : ∃ q, x.Is q := by
  cases x with
  | int n => exact ⟨n, .int n⟩
  | real v =>
      cases hvalue : v.value? with
      | some q => exact ⟨q, Number.Is.real_iff.mpr hvalue⟩
      | none =>
          obtain ⟨offset, hoffset, h⟩ := exists_of_bind_eq_ok h
          obtain ⟨a, ha, hoffset⟩ := exists_of_bind_eq_ok hoffset
          obtain ⟨b, -, hoffset⟩ := exists_of_bind_eq_ok hoffset
          obtain rfl := Except.ok.inj ha
          obtain rfl := Except.ok.inj hoffset
          obtain ⟨quotient, hquotient, h⟩ := exists_of_bind_eq_ok h
          obtain ⟨a, ha, hquotient⟩ := exists_of_bind_eq_ok hquotient
          obtain ⟨b, -, hquotient⟩ := exists_of_bind_eq_ok hquotient
          obtain rfl := Except.ok.inj ha
          split at hquotient
          · cases hquotient
          · obtain rfl := Except.ok.inj hquotient
            rw [Binary64.floorDiv_eq_nan (Binary64.value?_sub_eq_none hvalue _)] at h
            cases h

/-! ### Origin and canvas -/

/-- The origin of some shapes, zero if there are none. -/
def originOfShapes : List ShapeElement → Origin
  | [] => ⟨0, 0⟩
  | first :: others => originOf first others

/-- Shapes whose corners are integers. -/
def IntegerCorners (shapes : List ShapeElement) : Prop :=
  ∀ e ∈ shapes, e.x.isInt = true ∧ e.y.isInt = true

/-- A number is an end of some shapes, and none of their ends is greater. -/
structure LastEnd (f : ShapeElement → Except ArithmeticError Number) (shapes : List ShapeElement)
    (r : Number) : Prop where
  mem : ∃ e ∈ shapes, f e = .ok r
  not_lt : ∀ e ∈ shapes, ∀ t, f e = .ok t → r.lt t = false

/-- The greatest right ends of shapes lie in one column, and the greatest lower ends in one row. -/
structure LevelEnds (shapes : List ShapeElement) : Prop where
  right : ∀ r s, LastEnd ShapeElement.right shapes r → LastEnd ShapeElement.right shapes s →
    cellOf r unitsPerColumn (originOfShapes shapes).x =
      cellOf s unitsPerColumn (originOfShapes shapes).x
  bottom : ∀ r s, LastEnd ShapeElement.bottom shapes r → LastEnd ShapeElement.bottom shapes s →
    cellOf r unitsPerRow (originOfShapes shapes).y =
      cellOf s unitsPerRow (originOfShapes shapes).y

variable {ascii : Bool} {o : Origin} {e first first' : ShapeElement}
  {shapes shapes' others others' : List ShapeElement} {connectors : List ConnectorElement}

theorem originOfShapes_eq_of_perm (hperm : shapes'.Perm shapes) (hint : IntegerCorners shapes) :
    originOfShapes shapes' = originOfShapes shapes := by
  cases shapes with
  | nil => rw [hperm.eq_nil]
  | cons first others =>
      cases shapes' with
      | nil => exact absurd hperm.symm.eq_nil (List.cons_ne_nil _ _)
      | cons first' others' =>
          have hx := Number.least_eq_of_perm (hperm.map ShapeElement.x)
            (List.forall_mem_map.mpr fun e he => (hint e he).1)
          have hy := Number.least_eq_of_perm (hperm.map ShapeElement.y)
            (List.forall_mem_map.mpr fun e he => (hint e he).2)
          exact congrArg₂ Origin.mk hx hy

theorem exists_originOf_eq_int (hint : IntegerCorners (first :: others)) :
    ∃ x y, originOf first others = ⟨.int x, .int y⟩ := by
  obtain ⟨x, hx, -⟩ := Number.exists_least_eq_int (x := first.x) (l := others.map ShapeElement.x)
    (List.forall_mem_map (l := first :: others).mpr fun e he => (hint e he).1)
  obtain ⟨y, hy, -⟩ := Number.exists_least_eq_int (x := first.y) (l := others.map ShapeElement.y)
    (List.forall_mem_map (l := first :: others).mpr fun e he => (hint e he).2)
  exact ⟨x, y, congrArg₂ Origin.mk hx hy⟩

theorem LastEnd.of_perm {f : ShapeElement → Except ArithmeticError Number} {r : Number}
    (h : LastEnd f shapes' r) (hperm : shapes'.Perm shapes) : LastEnd f shapes r where
  mem := h.mem.imp fun _ he => ⟨hperm.mem_iff.mp he.1, he.2⟩
  not_lt e he := h.not_lt e (hperm.mem_iff.mpr he)

theorem exists_lastEnd {f : ShapeElement → Except ArithmeticError Number}
    (h : ∀ e ∈ first :: others, ∃ r q, f e = .ok r ∧ r.Is q) :
    ∃ r rs, f first = .ok r ∧ others.mapM f = .ok rs ∧
      LastEnd f (first :: others) (Number.greatest r rs) := by
  obtain ⟨⟨r, q, hr, hvalue⟩, hothers⟩ := List.forall_mem_cons.mp h
  obtain ⟨rs, hrs⟩ := exists_mapM_eq_ok fun e he => (hothers e he).imp fun _ h => h.choose_spec.1
  have hends : List.Forall₂ (fun e r => f e = .ok r) (first :: others) (r :: rs) :=
    .cons hr (forall₂_of_mapM_eq_ok hrs)
  have hfinite : ∀ z ∈ r :: rs, ∃ q, z.Is q := by
    intro z hz
    obtain ⟨e, he, hz⟩ := exists_mem_of_forall₂ hends.flip hz
    obtain ⟨r', q', hr', hvalue⟩ := h e he
    obtain rfl := Except.ok.inj (hr'.symm.trans hz)
    exact ⟨q', hvalue⟩
  refine ⟨r, rs, hr, hrs, exists_mem_of_forall₂ hends.flip (Number.greatest_mem r rs), ?_⟩
  intro e he t ht
  obtain ⟨z, hz, hend⟩ := exists_mem_of_forall₂ hends he
  obtain rfl := Except.ok.inj (ht.symm.trans hend)
  exact Number.greatest_lt_eq_false hfinite t hz

theorem exists_canvasFor_eq
    (hright : ∀ e ∈ first :: others, ∃ r q, e.right = .ok r ∧ r.Is q)
    (hbottom : ∀ e ∈ first :: others, ∃ r q, e.bottom = .ok r ∧ r.Is q) :
    ∃ r b, LastEnd ShapeElement.right (first :: others) r ∧
      LastEnd ShapeElement.bottom (first :: others) b ∧
      ∀ o, canvasFor o first others = (do
        let columns ← cellOf r unitsPerColumn o.x
        let rows ← cellOf b unitsPerRow o.y
        return .empty (columns + padding + 2) (rows + padding + 2)) := by
  obtain ⟨r, rs, hr, hrs, hlast⟩ := exists_lastEnd hright
  obtain ⟨b, bs, hb, hbs, hlast'⟩ := exists_lastEnd hbottom
  refine ⟨_, _, hlast, hlast', fun o => ?_⟩
  unfold canvasFor
  rw [hr, hrs, hb, hbs]
  rfl

theorem ShapeElement.exists_ends_of_box {x y : Int} {b : Box}
    (h : e.box ⟨.int x, .int y⟩ = .ok b) :
    (∃ r q, e.right = .ok r ∧ r.Is q) ∧ ∃ r q, e.bottom = .ok r ∧ r.Is q := by
  obtain ⟨left, -, h⟩ := exists_of_bind_eq_ok h
  obtain ⟨top, -, h⟩ := exists_of_bind_eq_ok h
  obtain ⟨r, hr, h⟩ := exists_of_bind_eq_ok h
  obtain ⟨column, hcolumn, h⟩ := exists_of_bind_eq_ok h
  obtain ⟨b, hb, h⟩ := exists_of_bind_eq_ok h
  obtain ⟨row, hrow, -⟩ := exists_of_bind_eq_ok h
  obtain ⟨q, hq⟩ := exists_is_of_cellOf hcolumn
  obtain ⟨q', hq'⟩ := exists_is_of_cellOf hrow
  exact ⟨⟨r, q, hr, hq⟩, b, q', hb, hq'⟩

theorem canvasFor_eq_of_perm (hperm : (first' :: others').Perm (first :: others))
    (hint : IntegerCorners (first :: others)) (hlevel : LevelEnds (first :: others))
    (hboxes : ∀ e ∈ first :: others, ∃ b, e.box (originOf first others) = .ok b) :
    canvasFor (originOf first' others') first' others' =
      canvasFor (originOf first others) first others := by
  obtain ⟨x, y, ho⟩ := exists_originOf_eq_int hint
  have hends : ∀ e ∈ first :: others,
      (∃ r q, e.right = .ok r ∧ r.Is q) ∧ ∃ r q, e.bottom = .ok r ∧ r.Is q := by
    intro e he
    obtain ⟨b, hb⟩ := hboxes e he
    rw [ho] at hb
    exact ShapeElement.exists_ends_of_box hb
  obtain ⟨r, b, hr, hb, heq⟩ := exists_canvasFor_eq (fun e he => (hends e he).1)
    fun e he => (hends e he).2
  have hends' : ∀ e ∈ first' :: others',
      (∃ r q, e.right = .ok r ∧ r.Is q) ∧ ∃ r q, e.bottom = .ok r ∧ r.Is q :=
    fun e he => hends e (hperm.mem_iff.mp he)
  obtain ⟨r', b', hr', hb', heq'⟩ := exists_canvasFor_eq (fun e he => (hends' e he).1)
    fun e he => (hends' e he).2
  have horigin : originOf first' others' = originOf first others :=
    originOfShapes_eq_of_perm hperm hint
  have hcolumns : cellOf r' unitsPerColumn (originOf first others).x =
      cellOf r unitsPerColumn (originOf first others).x :=
    hlevel.right r' r (hr'.of_perm hperm) hr
  have hrows : cellOf b' unitsPerRow (originOf first others).y =
      cellOf b unitsPerRow (originOf first others).y :=
    hlevel.bottom b' b (hb'.of_perm hperm) hb
  rw [horigin, heq, heq', hcolumns, hrows]

/-! ### Shapes in any order -/

/-- The boxes of two shapes have no cell in common. -/
def ShapeElement.Apart (o : Origin) (a b : ShapeElement) : Prop :=
  ∀ p q, a.box o = .ok p → b.box o = .ok q → p.Disjoint q

theorem pairwise_apart_of_boxes (boxes : List Box)
    (hmap : shapes.mapM (ShapeElement.box · o) = .ok boxes)
    (hdisjoint : boxes.Pairwise Box.Disjoint) : shapes.Pairwise (ShapeElement.Apart o) := by
  have hboxes := forall₂_of_mapM_eq_ok hmap
  clear hmap
  induction hboxes with
  | nil => exact .nil
  | cons hbox hboxes ih =>
      obtain ⟨hfirst, hrest⟩ := List.pairwise_cons.mp hdisjoint
      refine .cons (fun e he p q hp hq => ?_) (ih hrest)
      obtain ⟨b, hb, hbox'⟩ := exists_mem_of_forall₂ hboxes he
      obtain rfl := Except.ok.inj (hbox.symm.trans hp)
      obtain rfl := Except.ok.inj (hbox'.symm.trans hq)
      exact hfirst b hb

namespace Sketch

open Canvas (Confined)

variable {s s' t t' : Sketch} {boxes : List Box}

theorem perform_eq_ok_iff {act : Canvas.Action Unit} :
    s.perform act = .ok s' ↔ act.run s.canvas = .ok () s'.canvas ∧ s'.boxes = s.boxes := by
  obtain ⟨canvas, boxes⟩ := s
  obtain ⟨canvas', boxes'⟩ := s'
  unfold perform
  cases hrun : act.run canvas with
  | ok u c =>
      simp only [hrun, Except.ok.injEq, EStateM.Result.ok.injEq, true_and, mk.injEq]
      exact and_congr_right fun _ => eq_comm
  | error o c => simp [hrun]

def drawShape [Text.Measure] (ascii : Bool) (o : Origin) (e : ShapeElement) : Canvas.Action Unit :=
  match e.box o with
  | .ok b => Canvas.drawLabelled (e.glyphs ascii) b e.text e.kind.tag
  | .error _ => pure ()

theorem addShape_eq_ok_iff [Text.Measure] : s.addShape ascii o e = .ok s' ↔ ∃ b, e.box o = .ok b ∧
    (drawShape ascii o e).run s.canvas = .ok () s'.canvas ∧ s'.boxes = s.boxes ++ [b] := by
  constructor
  · intro h
    obtain ⟨b, next, hbox, hnext, rfl⟩ := exists_of_addShape h
    obtain ⟨hrun, hboxes⟩ := perform_eq_ok_iff.mp hnext
    refine ⟨b, hbox, ?_, by rw [hboxes]⟩
    rw [drawShape, hbox]
    exact hrun
  · rintro ⟨b, hbox, hrun, hboxes⟩
    rw [drawShape, hbox] at hrun
    have hnext : s.perform (Canvas.drawLabelled (e.glyphs ascii) b e.text e.kind.tag) =
        .ok ⟨s'.canvas, s.boxes⟩ := perform_eq_ok_iff.mpr ⟨hrun, rfl⟩
    refine bind_eq_ok (mapError_eq_ok hbox) (bind_eq_ok hnext ?_)
    rw [← hboxes]
    rfl

/-- Shapes are drawn one after the other, and their boxes are put behind those that there are. -/
theorem foldlM_addShape_eq_ok_iff [Text.Measure] : shapes.foldlM (addShape ascii o) s = .ok s' ↔
    ∃ boxes, List.Forall₂ (fun e b => e.box o = .ok b) shapes boxes ∧
      (shapes.forM (drawShape ascii o)).run s.canvas = .ok () s'.canvas ∧
      s'.boxes = s.boxes ++ boxes := by
  induction shapes generalizing s with
  | nil =>
      constructor
      · intro h
        obtain rfl := Except.ok.inj h
        exact ⟨[], .nil, rfl, (List.append_nil _).symm⟩
      · rintro ⟨boxes, hboxes, hrun, heq⟩
        cases hboxes
        obtain ⟨-, hcanvas⟩ := EStateM.Result.ok.inj hrun
        obtain ⟨canvas, boxes⟩ := s
        obtain ⟨canvas', boxes'⟩ := s'
        simp_all [pure, Except.pure]
  | cons e shapes ih =>
      rw [List.foldlM_cons]
      constructor
      · intro h
        obtain ⟨next, hnext, h⟩ := exists_of_bind_eq_ok h
        obtain ⟨b, hbox, hrun, heq⟩ := addShape_eq_ok_iff.mp hnext
        obtain ⟨boxes, hboxes, hruns, heqs⟩ := ih.mp h
        refine ⟨b :: boxes, .cons hbox hboxes, Canvas.run_bind_eq_ok hrun hruns, ?_⟩
        rw [heqs, heq, List.append_assoc]
        rfl
      · rintro ⟨boxes, hboxes, hrun, heq⟩
        cases hboxes with
        | @cons _ b _ boxes hbox hboxes =>
            obtain ⟨_, c, hfirst, hrest⟩ := Canvas.exists_of_run_bind hrun
            have hnext : s.addShape ascii o e = .ok ⟨c, s.boxes ++ [b]⟩ :=
              addShape_eq_ok_iff.mpr ⟨b, hbox, hfirst, rfl⟩
            refine bind_eq_ok hnext (ih.mpr ⟨boxes, hboxes, hrest, ?_⟩)
            rw [heq, List.append_assoc]
            rfl

theorem confined_drawShape [Text.Measure] (w h : Int) (ascii : Bool) (o : Origin)
    (e : ShapeElement) :
    Confined w h (fun p => ∃ b, e.box o = .ok b ∧ b.contains p = true) (drawShape ascii o e) := by
  unfold drawShape
  cases hbox : e.box o with
  | error err => exact .pure w h _
  | ok b =>
      exact (Canvas.confined_drawLabelled w h _ (ShapeElement.roomy_of_box hbox) _ _).mono
        fun p hin => ⟨b, rfl, hin⟩

/-! ### Connectors -/

/-- Two sketches with one canvas, and with the same boxes in some order. -/
structure Alike (s s' : Sketch) : Prop where
  canvas : s'.canvas = s.canvas
  boxes : s'.boxes.Perm s.boxes

theorem Alike.isFree_eq (h : s.Alike s') : s'.isFree = s.isFree := by
  funext p
  have hboxes : s'.boxes.any (fun b => b.contains p) = s.boxes.any fun b => b.contains p :=
    h.boxes.any_eq
  rw [isFree, isFree, h.canvas, hboxes]

theorem Alike.exists_perform (h : s.Alike s') {act : Canvas.Action Unit}
    (hrun : s.perform act = .ok t) : ∃ t', s'.perform act = .ok t' ∧ t.Alike t' := by
  obtain ⟨hrun, hboxes⟩ := perform_eq_ok_iff.mp hrun
  rw [← h.canvas] at hrun
  refine ⟨⟨t.canvas, s'.boxes⟩, perform_eq_ok_iff.mpr ⟨hrun, rfl⟩, rfl, ?_⟩
  rw [hboxes]
  exact h.boxes

theorem Alike.exists_addLabel [Text.Measure] (h : s.Alike s') {text : String} {stretch : List Place}
    (hadd : s.addLabel text stretch = .ok t) :
    ∃ t', s'.addLabel text stretch = .ok t' ∧ t.Alike t' := by
  rw [addLabel_eq] at hadd ⊢
  rw [h.isFree_eq]
  split at hadd
  · next hfree =>
      rw [if_pos hfree]
      exact h.exists_perform hadd
  · next hfree =>
      obtain rfl := Except.ok.inj hadd
      rw [if_neg hfree]
      exact ⟨s', rfl, h⟩

theorem Alike.exists_addLine [Text.Measure] (h : s.Alike s') {start stop : Place} {text : String}
    (hadd : s.addLine ascii start stop text = .ok t) :
    ∃ t', s'.addLine ascii start stop text = .ok t' ∧ t.Alike t' := by
  have hstretch : s'.freeStretch = s.freeStretch := by
    funext line
    rw [freeStretch, freeStretch, h.isFree_eq]
  unfold addLine at hadd ⊢
  simp only [hstretch]
  cases hlast : (s.freeStretch (lineCells start stop)).getLast? with
  | none =>
      simp only [hlast] at hadd
      obtain rfl := Except.ok.inj hadd
      exact ⟨s', rfl, h⟩
  | some p =>
      simp only [hlast] at hadd
      obtain ⟨trail, htrail, hadd⟩ := exists_of_bind_eq_ok hadd
      obtain ⟨tip, htip, hadd⟩ := exists_of_bind_eq_ok hadd
      obtain ⟨trail', htrail', halike⟩ := h.exists_perform htrail
      obtain ⟨tip', htip', halike⟩ := halike.exists_perform htip
      split at hadd
      · next htext =>
          obtain rfl := Except.ok.inj hadd
          exact ⟨tip', bind_eq_ok htrail' (bind_eq_ok htip' (if_pos htext)), halike⟩
      · next htext =>
          obtain ⟨t', hlabel, halike⟩ := halike.exists_addLabel hadd
          exact ⟨t', bind_eq_ok htrail' (bind_eq_ok htip' ((if_neg htext).trans hlabel)), halike⟩

theorem Alike.exists_addConnector [Text.Measure] (h : s.Alike s') {c : ConnectorElement}
    (hadd : s.addConnector ascii o c = .ok t) :
    ∃ t', s'.addConnector ascii o c = .ok t' ∧ t.Alike t' := by
  obtain ⟨startX, hstartX, hadd⟩ := exists_of_bind_eq_ok hadd
  obtain ⟨startY, hstartY, hadd⟩ := exists_of_bind_eq_ok hadd
  obtain ⟨stopX, hstopX, hadd⟩ := exists_of_bind_eq_ok hadd
  obtain ⟨stopY, hstopY, hadd⟩ := exists_of_bind_eq_ok hadd
  obtain ⟨t', hadd', halike⟩ := h.exists_addLine hadd
  exact ⟨t', bind_eq_ok hstartX (bind_eq_ok hstartY (bind_eq_ok hstopX (bind_eq_ok hstopY hadd'))),
    halike⟩

theorem Alike.exists_foldlM_addConnector [Text.Measure] (h : s.Alike s')
    (hadd : connectors.foldlM (addConnector ascii o) s = .ok t) :
    ∃ t', connectors.foldlM (addConnector ascii o) s' = .ok t' ∧ t.Alike t' := by
  induction connectors generalizing s s' with
  | nil =>
      obtain rfl := Except.ok.inj hadd
      exact ⟨s', rfl, h⟩
  | cons c connectors ih =>
      rw [List.foldlM_cons] at hadd ⊢
      obtain ⟨next, hnext, hadd⟩ := exists_of_bind_eq_ok hadd
      obtain ⟨next', hnext', halike⟩ := h.exists_addConnector hnext
      obtain ⟨t', hadd', halike⟩ := ih halike hadd
      exact ⟨t', bind_eq_ok hnext' hadd', halike⟩

/-! ### Sketches -/

/-- Shapes whose boxes have no cell in common are drawn in any order. -/
theorem exists_foldlM_addShape_of_perm [Text.Measure] (hperm : shapes'.Perm shapes)
    (hapart : shapes.Pairwise (ShapeElement.Apart o))
    (hadd : shapes.foldlM (addShape ascii o) s = .ok t) :
    ∃ t', shapes'.foldlM (addShape ascii o) s = .ok t' ∧ t.Alike t' := by
  obtain ⟨boxes, hboxes, hrun, heq⟩ := foldlM_addShape_eq_ok_iff.mp hadd
  obtain ⟨boxes', hboxes', hpermuted⟩ := List.perm_comp_forall₂ hperm hboxes
  have hrun' := Canvas.run_forM_of_perm hperm.symm
    (fun e _ => confined_drawShape s.canvas.width s.canvas.height ascii o e)
    (hapart.imp fun hab p ⟨⟨a, ha, hin⟩, b, hb, hin'⟩ => hab a b ha hb p ⟨hin, hin'⟩)
    ⟨rfl, rfl⟩ hrun
  refine ⟨⟨t.canvas, s.boxes ++ boxes'⟩,
    foldlM_addShape_eq_ok_iff.mpr ⟨boxes', hboxes', hrun', rfl⟩, rfl, ?_⟩
  rw [heq]
  exact hpermuted.append_left s.boxes

theorem exists_sketchOf_of_perm [Text.Measure] (hperm : (first' :: others').Perm (first :: others))
    (hint : IntegerCorners (first :: others)) (hlevel : LevelEnds (first :: others))
    (hapart : (first :: others).Pairwise (ShapeElement.Apart (originOf first others)))
    (h : sketchOf ascii first others connectors = .ok t) :
    ∃ t', sketchOf ascii first' others' connectors = .ok t' ∧ t.Alike t' := by
  obtain ⟨canvas, hcanvas, h⟩ := exists_of_bind_eq_ok h
  obtain ⟨drawn, hdrawn, h⟩ := exists_of_bind_eq_ok h
  obtain ⟨boxes, hboxes, -⟩ := exists_boxes_of_foldlM hdrawn
  have horigin : originOf first' others' = originOf first others :=
    originOfShapes_eq_of_perm hperm hint
  have hcanvas' := canvasFor_eq_of_perm hperm hint hlevel fun e he =>
    (exists_mem_of_forall₂ hboxes he).imp fun _ hb => hb.2
  obtain ⟨drawn', hdrawn', halike⟩ := exists_foldlM_addShape_of_perm hperm hapart hdrawn
  obtain ⟨t', hadd', halike⟩ := halike.exists_foldlM_addConnector h
  rw [← hcanvas'] at hcanvas
  rw [← horigin] at hdrawn' hadd'
  exact ⟨t', bind_eq_ok hcanvas (bind_eq_ok hdrawn' hadd'), halike⟩

end Sketch

/-! ### Previews -/

theorem LastEnd.eq_of_isInt {f : ShapeElement → Except ArithmeticError Number} {r s : Number}
    (hint : ∀ e ∈ shapes, ∀ t, f e = .ok t → t.isInt = true) (hr : LastEnd f shapes r)
    (hs : LastEnd f shapes s) : r = s := by
  obtain ⟨a, ha, hra⟩ := hr.mem
  obtain ⟨b, hb, hsb⟩ := hs.mem
  obtain ⟨m, rfl⟩ := Number.exists_eq_int (hint a ha r hra)
  obtain ⟨n, rfl⟩ := Number.exists_eq_int (hint b hb s hsb)
  have hle := hr.not_lt b hb _ hsb
  have hle' := hs.not_lt a ha _ hra
  rw [← Bool.not_eq_true, Number.lt_int] at hle hle'
  exact congrArg Number.int (by omega)

theorem levelEnds_of_isInt (hcorners : IntegerCorners shapes)
    (hsizes : ∀ e ∈ shapes, e.width.isInt = true ∧ e.height.isInt = true) : LevelEnds shapes := by
  have hsum : ∀ {x w t : Number}, x.isInt = true → w.isInt = true → x.add w = .ok t →
      t.isInt = true := by
    intro x w t hx hw ht
    obtain ⟨m, rfl⟩ := Number.exists_eq_int hx
    obtain ⟨n, rfl⟩ := Number.exists_eq_int hw
    obtain rfl := Except.ok.inj ht
    rfl
  constructor
  · intro r s hr hs
    rw [hr.eq_of_isInt (fun e he t => hsum (hcorners e he).1 (hsizes e he).1) hs]
  · intro r s hr hs
    rw [hr.eq_of_isInt (fun e he t => hsum (hcorners e he).2 (hsizes e he).2) hs]

/-- **Shapes apart from each other are drawn in any order.**  The corners of the shapes are
integers, and no two boxes have a cell in common.  The greatest right ends lie in one column and the
greatest lower ends in one row, as is always the case if the sizes are integers too.  Then the
elements can be rearranged as long as the connectors keep their order among themselves: if there is
a preview, the rearranged elements have the same one. -/
theorem preview_eq_of_perm [Text.Measure] {elements : List Element} {shapes : List ShapeElement}
    (hshapes : elements.filterMap Element.shape? = shapes) (hcorners : IntegerCorners shapes)
    (hapart : shapes.Pairwise (ShapeElement.Apart (originOfShapes shapes))) :
    ((∀ e ∈ shapes, e.width.isInt = true ∧ e.height.isInt = true) → LevelEnds shapes) ∧
    (LevelEnds shapes → ∀ elements' : List Element, elements'.Perm elements →
      elements'.filterMap Element.connector? = elements.filterMap Element.connector? →
      ∀ style marked shown, preview elements style marked = .ok shown →
        preview elements' style marked = .ok shown) := by
  refine ⟨levelEnds_of_isInt hcorners, ?_⟩
  intro hlevel elements' hperm hconnectors style marked shown h
  have hpermuted := hperm.filterMap Element.shape?
  rw [hshapes] at hpermuted
  unfold preview at h ⊢
  rw [hconnectors]
  rw [hshapes] at h
  generalize elements'.filterMap Element.shape? = shapes' at hpermuted ⊢
  cases shapes with
  | nil =>
      rw [hpermuted.eq_nil]
      exact h
  | cons first others =>
      cases shapes' with
      | nil => exact absurd hpermuted.symm.eq_nil (List.cons_ne_nil _ _)
      | cons first' others' =>
          obtain ⟨s, hs, h⟩ := exists_of_bind_eq_ok h
          obtain ⟨s', hs', halike⟩ :=
            Sketch.exists_sketchOf_of_perm hpermuted hcorners hlevel hapart hs
          refine bind_eq_ok hs' ?_
          rw [halike.canvas]
          exact h

/-- Shapes with connectors between them; the label of one is wide and too long. -/
def spread : List Element :=
  [plainShape "a" .rectangle 0 0 "a", plainShape "b" .diamond 320 0 "b",
   .connector { id := "arrow-a-b", start := ⟨60, 30⟩, stop := ⟨380, 30⟩, text := some "to b",
                style := .ofConnector, startArrowhead := none, endArrowhead := some "arrow",
                seed := 0, nonce := 0 },
   plainShape "c" .ellipse 160 160 "日本日本日本",
   .connector { id := "arrow-c-a", start := ⟨220, 190⟩, stop := ⟨60, 30⟩, text := none,
                style := .ofConnector, startArrowhead := none, endArrowhead := some "arrow",
                seed := 0, nonce := 0 }]

/-- The connectors in front of the shapes, and these in the other order. -/
def spreadBack : List Element :=
  (spread.filter fun e => e.kind = .arrow) ++ (spread.filter fun e => e.kind ≠ .arrow).reverse

theorem preview_eq_of_perm_spread :
    spreadBack.map Element.id = ["arrow-a-b", "arrow-c-a", "c", "b", "a"] ∧
    preview spreadBack "unicode" false =
      .ok ("\n ┌──────────┐                    /──────────\\\n" ++
        " │    a     │···················►│    b     │\n" ++
        " └──────────┘                    \\──────────/\n           ◄·\n             ··\n" ++
        "               ··\n                 ··\n                   ··\n" ++
        "                 ╭──────────╮\n                 │日本日本… │\n" ++
        "                 ╰──────────╯") := by
  have hcorners : IntegerCorners (spread.filterMap Element.shape?) := by
    unfold IntegerCorners
    decide
  have hapart : (spread.filterMap Element.shape?).Pairwise
      (ShapeElement.Apart (originOfShapes (spread.filterMap Element.shape?))) :=
    pairwise_apart_of_boxes [⟨1, 1, 12, 3⟩, ⟨33, 1, 44, 3⟩, ⟨17, 9, 28, 11⟩] (by decide +kernel)
      (by decide)
  obtain ⟨hlevel, hpreview⟩ := preview_eq_of_perm rfl hcorners hapart
  exact ⟨by decide, hpreview (hlevel (by decide)) spreadBack (by decide +kernel) (by decide) _ _ _
    (by decide +kernel)⟩

/-- Two shapes that end in the same place beyond the integers that the floating format holds: one
of them with an integer width, the other one with a floating one. -/
def farOut : List Element :=
  [.shape { id := "a", kind := .rectangle, x := .int (2 ^ 60 - 60), y := 0, width := 60,
            height := 60, text := "a", style := .standard, seed := 0, nonce := 0 },
   .shape { id := "b", kind := .rectangle, x := .int (2 ^ 60 - 60), y := 100,
            width := .real (.finite 60), height := 60, text := "b", style := .standard, seed := 0,
            nonce := 0 }]

/-- The corners are integers and the boxes are apart, but only one order of the shapes leaves room
for the first of them. -/
theorem not_preview_eq_of_perm :
    IntegerCorners (farOut.filterMap Element.shape?) ∧
    (farOut.filterMap Element.shape?).Pairwise
      (ShapeElement.Apart (originOfShapes (farOut.filterMap Element.shape?))) ∧
    farOut.reverse.Perm farOut ∧
    farOut.reverse.filterMap Element.connector? = farOut.filterMap Element.connector? ∧
    preview farOut "unicode" false = .ok "\n ┌────┐\n │ a  │\n └────┘\n\n\n ┌──┐\n │b │\n └──┘" ∧
    preview farOut.reverse "unicode" false = .error (.overflow ⟨4, 7, 4, 12⟩) := by
  refine ⟨?_, ?_, List.reverse_perm _, rfl, by decide +kernel, by decide +kernel⟩
  · unfold IntegerCorners
    decide
  · exact pairwise_apart_of_boxes [⟨1, 1, 6, 3⟩, ⟨1, 6, 4, 8⟩] (by decide +kernel) (by decide)

end Flowchart
