import Mathlib.Order.Bounds.Basic
import Flowchart.Proofs.Canvas.Sketch
import Flowchart.Proofs.Element.Conversion
import Flowchart.Proofs.Layout.Apart

/-! # Cells of exact coordinates

Coordinates on a grid that are small enough for their differences to be exact are drawn without
rounding: the cell of a coordinate is its offset from the origin in whole cells (`cellOf_eq`).  The
canvas of a drawing is then that of the smallest frame around its shapes, and the box of a shape is
that of its frame (`Frame.Bounds.canvasFor_eq`, `Frame.Bounds.box_eq`).

Frames that are apart, and not too small, have boxes without a common cell
(`Frame.Apart.disjoint_boxIn`). -/

namespace Flowchart

/-! ### Cells -/

/-- The cell of an offset from the origin, at a number of units for a cell. -/
def cellAt (units : Nat) (offset : Rat) : Int := ⌊offset / units⌋ + 1

section
variable {units : Nat} {p q : Rat}

theorem cellAt_mono (units : Nat) (h : p ≤ q) : cellAt units p ≤ cellAt units q :=
  Int.add_le_add_right (Int.floor_le_floor (div_le_div_of_nonneg_right h (Nat.cast_nonneg _))) 1

theorem one_le_cellAt (units : Nat) (h : 0 ≤ p) : 1 ≤ cellAt units p := by
  have hfloor : 0 ≤ ⌊p / units⌋ := Int.floor_nonneg.mpr (div_nonneg h (Nat.cast_nonneg _))
  unfold cellAt
  omega

/-- A distance of some cells leads that many cells on. -/
theorem cellAt_add_le (hunits : 0 < units) (count : Nat) (h : p + count * units ≤ q) :
    cellAt units p + count ≤ cellAt units q := by
  have hne : (units : Rat) ≠ 0 := by exact_mod_cast hunits.ne'
  have hcells : (p + count * units) / units = p / units + count := by
    rw [add_div, mul_div_cancel_right₀ _ hne]
  have hmono := cellAt_mono units h
  rw [cellAt, hcells, Int.floor_add_natCast] at hmono
  unfold cellAt at hmono ⊢
  omega

end

/-! ### Numbers whose differences are exact -/

namespace Number

/-- A number on the grid of `2 ^ -k` that is so small that the difference of two is exact. -/
structure Near (k : Nat) (x : Number) : Prop where
  fine : k ≤ 1074
  finite : x.Is x.value
  whole : OnGrid k x.value
  small : |x.value| * 2 ^ k < 2 ^ 52

namespace Near

variable {k : Nat} {x y : Number}

theorem of_is {q : Rat} (hk : k ≤ 1074) (hx : x.Is q) (hq : OnGrid k q)
    (hsmall : |q| * 2 ^ k < 2 ^ 52) : x.Near k := by
  obtain rfl := hx.value_eq
  exact ⟨hk, hx, hq, hsmall⟩

theorem fits (h : x.Near k) : Fits k x.value :=
  ⟨h.fine, h.whole, by linarith [h.small]⟩

theorem exists_sub (hx : x.Near k) (hy : y.Near k) :
    ∃ z, x.sub y = .ok z ∧ z.Is (x.value - y.value) ∧ Fits k (x.value - y.value) := by
  have hfits : Fits k (x.value - y.value) := by
    refine ⟨hx.fine, hx.whole.sub hy.whole, ?_⟩
    have hle : |x.value - y.value| * 2 ^ k ≤ (|x.value| + |y.value|) * 2 ^ k :=
      mul_le_mul_of_nonneg_right (abs_sub _ _) (by positivity)
    linarith [hx.small, hy.small]
  obtain ⟨z, hz, hvalue⟩ := hx.finite.sub hy.finite hx.fits hy.fits hfits
  exact ⟨z, hz, hvalue, hfits⟩

theorem exists_add (hx : x.Near k) (hy : y.Near k)
    (hsmall : |x.value + y.value| * 2 ^ k < 2 ^ 52) :
    ∃ z, x.add y = .ok z ∧ z.Near k ∧ z.value = x.value + y.value := by
  have hwhole := hx.whole.add hy.whole
  have hfits : Fits k (x.value + y.value) := ⟨hx.fine, hwhole, by linarith⟩
  obtain ⟨z, hz, hvalue⟩ := hx.finite.add hy.finite hx.fits hy.fits hfits
  exact ⟨z, hz, of_is hx.fine hvalue hwhole hsmall, hvalue.value_eq⟩

/-- The half of a number whose half is on the grid as well. -/
theorem exists_half (hx : x.Near k) (hhalf : OnGrid k (x.value / 2)) :
    ∃ z, x.half = .ok z ∧ z.Near k ∧ z.value = x.value / 2 := by
  have hsmall : |x.value / 2| * 2 ^ k < 2 ^ 52 := by
    have hnonneg : 0 ≤ |x.value| * 2 ^ k := by positivity
    rw [abs_div, abs_two]
    linarith [hx.small]
  obtain ⟨z, hz, hvalue⟩ := hx.finite.half ⟨hx.fine, hhalf, by linarith⟩
  exact ⟨z, hz, of_is hx.fine hvalue hhalf hsmall, hvalue.value_eq⟩

variable {first : Number} {others : List Number}

theorem forall_exists_is (h : ∀ x ∈ first :: others, x.Near k) : ∀ z ∈ others, ∃ r, z.Is r :=
  fun z hz => ⟨_, (h z (List.mem_cons_of_mem _ hz)).finite⟩

theorem value_mem_map {r : Rat} (hr : r = first.value ∨ ∃ z ∈ others, z.Is r) :
    r ∈ (first :: others).map value := by
  rcases hr with rfl | ⟨z, hz, hvalue⟩
  · exact List.mem_cons_self
  · exact List.mem_cons_of_mem _ (List.mem_map.mpr ⟨z, hz, hvalue.value_eq⟩)

theorem of_mem_map (h : ∀ x ∈ first :: others, x.Near k) (hx : x.Is x.value)
    (hmem : x.value ∈ (first :: others).map value) : x.Near k := by
  obtain ⟨z, hz, hvalue⟩ := List.mem_map.mp hmem
  have hnear := h z hz
  exact ⟨hnear.fine, hx, hvalue ▸ hnear.whole, hvalue ▸ hnear.small⟩

theorem forall_value {R : Rat → Prop} (h : ∀ x ∈ first :: others, x.Near k)
    (hfirst : R first.value) (hothers : ∀ z ∈ others, ∀ q, z.Is q → R q) :
    ∀ q ∈ (first :: others).map value, R q := by
  intro q hq
  rcases List.mem_cons.mp hq with rfl | hq
  · exact hfirst
  · obtain ⟨z, hz, rfl⟩ := List.mem_map.mp hq
    exact hothers z hz _ (h z (List.mem_cons_of_mem _ hz)).finite

theorem least (h : ∀ x ∈ first :: others, x.Near k) : (least first others).Near k ∧
    IsLeast {q | q ∈ (first :: others).map value} (least first others).value := by
  obtain ⟨r, hr, hfirst, hothers, hmem⟩ :=
    (h first List.mem_cons_self).finite.exists_least (forall_exists_is h)
  obtain rfl := hr.value_eq
  have hvalue := value_mem_map hmem
  exact ⟨of_mem_map h hr hvalue, hvalue, forall_value h hfirst hothers⟩

theorem greatest (h : ∀ x ∈ first :: others, x.Near k) : (greatest first others).Near k ∧
    IsGreatest {q | q ∈ (first :: others).map value} (greatest first others).value := by
  obtain ⟨r, hr, hfirst, hothers, hmem⟩ :=
    (h first List.mem_cons_self).finite.exists_greatest (forall_exists_is h)
  obtain rfl := hr.value_eq
  have hvalue := value_mem_map hmem
  exact ⟨of_mem_map h hr hvalue, hvalue, forall_value h hfirst hothers⟩

end Near

end Number

theorem cellOf_eq {k units : Nat} {x origin : Number} (hx : x.Near k) (horigin : origin.Near k)
    (hle : origin.value ≤ x.value) (hunits : 0 < units) (hfits : Fits 0 units) :
    cellOf x (.int units) origin = .ok (cellAt units (x.value - origin.value)) := by
  obtain ⟨offset, hoffset, hvalue, hoffsetFits⟩ := hx.exists_sub horigin
  obtain ⟨quotient, hquotient, hfloor⟩ :=
    hvalue.floorDiv hoffsetFits (sub_nonneg.mpr hle) hunits hfits
  exact bind_eq_ok hoffset (bind_eq_ok hquotient (bind_eq_ok hfloor.toInt rfl))

theorem fits_natCast {n : Nat} (hn : n < 2 ^ 53) : Fits 0 n := by
  refine ⟨by decide, .natCast 0 n, ?_⟩
  rw [abs_of_nonneg (Nat.cast_nonneg _), pow_zero, mul_one]
  exact_mod_cast hn

theorem cellOf_column {k : Nat} {x origin : Number} (hx : x.Near k) (horigin : origin.Near k)
    (hle : origin.value ≤ x.value) :
    cellOf x unitsPerColumn origin = .ok (cellAt 10 (x.value - origin.value)) :=
  cellOf_eq hx horigin hle (by decide) (fits_natCast (by decide))

theorem cellOf_row {k : Nat} {y origin : Number} (hy : y.Near k) (horigin : origin.Near k)
    (hle : origin.value ≤ y.value) :
    cellOf y unitsPerRow origin = .ok (cellAt 20 (y.value - origin.value)) :=
  cellOf_eq hy horigin hle (by decide) (fits_natCast (by decide))

/-! ### Shapes -/

def ShapeElement.frame (e : ShapeElement) : Frame where
  left := e.x.value
  top := e.y.value
  right := e.x.value + e.width.value
  bottom := e.y.value + e.height.value

namespace ShapeElement

/-- A shape whose ends and whose centre are worked out without rounding. -/
structure Exact (k : Nat) (e : ShapeElement) : Prop where
  x : e.x.Near k
  y : e.y.Near k
  width : e.width.Near k
  height : e.height.Near k
  width_nonneg : 0 ≤ e.width.value
  height_nonneg : 0 ≤ e.height.value
  halfWidth : OnGrid k (e.width.value / 2)
  halfHeight : OnGrid k (e.height.value / 2)
  right_small : |e.frame.right| * 2 ^ k < 2 ^ 52
  bottom_small : |e.frame.bottom| * 2 ^ k < 2 ^ 52

namespace Exact

variable {k : Nat} {e : ShapeElement}

theorem exists_right (h : e.Exact k) :
    ∃ r, e.right = .ok r ∧ r.Near k ∧ r.value = e.frame.right :=
  h.x.exists_add h.width h.right_small

theorem exists_bottom (h : e.Exact k) :
    ∃ r, e.bottom = .ok r ∧ r.Near k ∧ r.value = e.frame.bottom :=
  h.y.exists_add h.height h.bottom_small

theorem left_le_right (h : e.Exact k) : e.frame.left ≤ e.frame.right :=
  le_add_of_nonneg_right h.width_nonneg

theorem top_le_bottom (h : e.Exact k) : e.frame.top ≤ e.frame.bottom :=
  le_add_of_nonneg_right h.height_nonneg

/-- The centre of a shape is exact and lies in its frame. -/
theorem exists_center (h : e.Exact k) : ∃ center, e.center = .ok center ∧ center.x.Near k ∧
    center.y.Near k ∧ e.frame.left ≤ center.x.value ∧ e.frame.top ≤ center.y.value := by
  have hmid : ∀ {p w : Rat}, 0 ≤ w → |p| * 2 ^ k < 2 ^ 52 → |p + w| * 2 ^ k < 2 ^ 52 →
      |p + w / 2| * 2 ^ k < 2 ^ 52 := by
    intro p w hw hp hsum
    have hle : |p + w / 2| ≤ max |p| |p + w| := abs_le_max_abs_abs (by linarith) (by linarith)
    rcases le_max_iff.mp hle with hle | hle
    · exact (mul_le_mul_of_nonneg_right hle (by positivity)).trans_lt hp
    · exact (mul_le_mul_of_nonneg_right hle (by positivity)).trans_lt hsum
  obtain ⟨halfWidth, hwidth, hwidthNear, hwidthValue⟩ := h.width.exists_half h.halfWidth
  obtain ⟨halfHeight, hheight, hheightNear, hheightValue⟩ := h.height.exists_half h.halfHeight
  obtain ⟨x, hx, hxNear, hxValue⟩ := h.x.exists_add hwidthNear (by
    rw [hwidthValue]
    exact hmid h.width_nonneg h.x.small h.right_small)
  obtain ⟨y, hy, hyNear, hyValue⟩ := h.y.exists_add hheightNear (by
    rw [hheightValue]
    exact hmid h.height_nonneg h.y.small h.bottom_small)
  have heq : e.center = .ok ⟨x, y⟩ :=
    bind_eq_ok hwidth (bind_eq_ok hx (bind_eq_ok hheight (bind_eq_ok hy rfl)))
  have hwidthNonneg := h.width_nonneg
  have hheightNonneg := h.height_nonneg
  refine ⟨⟨x, y⟩, heq, hxNear, hyNear, ?_, ?_⟩
  · rw [hxValue, hwidthValue, frame]
    linarith
  · rw [hyValue, hheightValue, frame]
    linarith

end Exact

end ShapeElement

/-! ### Frames and their boxes -/

namespace Frame

/-- The box of a frame, with cells counted from the corner of another frame. -/
def boxIn (hull f : Frame) : Box :=
  let left := cellAt 10 (f.left - hull.left)
  let top := cellAt 20 (f.top - hull.top)
  { left, top
    right := max (cellAt 10 (f.right - hull.left) - 1) (left + 3)
    bottom := max (cellAt 20 (f.bottom - hull.top) - 1) (top + 2) }

/-- The canvas for all that lies in a frame. -/
def canvas (hull : Frame) : Canvas :=
  .empty (cellAt 10 (hull.right - hull.left) + padding + 2)
    (cellAt 20 (hull.bottom - hull.top) + padding + 2)

/-- The smallest frame around some frames. -/
structure IsHull (hull : Frame) (frames : List Frame) : Prop where
  left : IsLeast {q | q ∈ frames.map Frame.left} hull.left
  top : IsLeast {q | q ∈ frames.map Frame.top} hull.top
  right : IsGreatest {q | q ∈ frames.map Frame.right} hull.right
  bottom : IsGreatest {q | q ∈ frames.map Frame.bottom} hull.bottom

/-- The smallest frame around exact shapes; their cells are counted from its corner. -/
structure Bounds (k : Nat) (first : ShapeElement) (others : List ShapeElement) (hull : Frame) :
    Prop where
  exact : ∀ e ∈ first :: others, e.Exact k
  isHull : hull.IsHull ((first :: others).map ShapeElement.frame)
  x : (originOf first others).x.Near k
  y : (originOf first others).y.Near k
  left : (originOf first others).x.value = hull.left
  top : (originOf first others).y.value = hull.top
  canvasFor_eq : canvasFor (originOf first others) first others = .ok hull.canvas

theorem exists_greatest_of_mapM {k : Nat} {first : ShapeElement} {others : List ShapeElement}
    {f : ShapeElement → Except ArithmeticError Number} {g : ShapeElement → Rat}
    (h : ∀ e ∈ first :: others, ∃ r, f e = .ok r ∧ r.Near k ∧ r.value = g e) :
    ∃ r rs, f first = .ok r ∧ others.mapM f = .ok rs ∧ (Number.greatest r rs).Near k ∧
      IsGreatest {q | q ∈ (first :: others).map g} (Number.greatest r rs).value := by
  obtain ⟨⟨r, hr, hnear, hvalue⟩, hothers⟩ := List.forall_mem_cons.mp h
  obtain ⟨rs, hrs⟩ := exists_mapM_eq_ok fun e he => (hothers e he).imp fun _ he => he.1
  have hends := (List.forall₂_and_left _ _).mpr ⟨hothers, forall₂_of_mapM_eq_ok hrs⟩
  have hends : List.Forall₂ (fun e r => r.Near k ∧ r.value = g e) others rs :=
    hends.imp fun e r ⟨⟨r', hr', hend⟩, hr⟩ => Except.ok.inj (hr'.symm.trans hr) ▸ hend
  have hall : ∀ x ∈ r :: rs, x.Near k := by
    refine List.forall_mem_cons.mpr ⟨hnear, fun x hx => ?_⟩
    obtain ⟨e, -, he⟩ := exists_mem_of_forall₂ hends.flip hx
    exact he.1
  have hvalues : (r :: rs).map Number.value = (first :: others).map g := by
    rw [List.map_cons, List.map_cons, hvalue, map_eq_map_of_forall₂ hends fun e r he => he.2.symm]
  obtain ⟨hgreatest, hmax⟩ := Number.Near.greatest hall
  rw [hvalues] at hmax
  exact ⟨r, rs, hr, hrs, hgreatest, hmax⟩

theorem exists_bounds {k : Nat} {first : ShapeElement} {others : List ShapeElement}
    (h : ∀ e ∈ first :: others, e.Exact k) : ∃ hull : Frame, hull.Bounds k first others := by
  have hxs : ∀ x ∈ first.x :: others.map ShapeElement.x, x.Near k :=
    List.forall_mem_map.mpr fun e he => (h e he).x
  have hys : ∀ y ∈ first.y :: others.map ShapeElement.y, y.Near k :=
    List.forall_mem_map.mpr fun e he => (h e he).y
  obtain ⟨hx, hleft⟩ := Number.Near.least hxs
  obtain ⟨hy, htop⟩ := Number.Near.least hys
  obtain ⟨r, rs, hr, hrs, hright, hmaxRight⟩ :=
    exists_greatest_of_mapM fun e he => (h e he).exists_right
  obtain ⟨b, bs, hb, hbs, hbottom, hmaxBottom⟩ :=
    exists_greatest_of_mapM fun e he => (h e he).exists_bottom
  rw [← List.map_cons, List.map_map] at hleft htop
  have hfirst : first ∈ first :: others := List.mem_cons_self
  have hcolumns := cellOf_column hright hx <|
    (hleft.2 (List.mem_map_of_mem hfirst)).trans <|
      (h first hfirst).left_le_right.trans <|
        hmaxRight.2 (List.mem_map_of_mem (f := fun e => e.frame.right) hfirst)
  have hrows := cellOf_row hbottom hy <|
    (htop.2 (List.mem_map_of_mem hfirst)).trans <|
      (h first hfirst).top_le_bottom.trans <|
        hmaxBottom.2 (List.mem_map_of_mem (f := fun e => e.frame.bottom) hfirst)
  refine ⟨⟨_, _, _, _⟩, h, ?_, hx, hy, rfl, rfl, bind_eq_ok hr (bind_eq_ok hrs (bind_eq_ok hb
    (bind_eq_ok hbs (bind_eq_ok hcolumns (bind_eq_ok hrows rfl)))))⟩
  refine ⟨?_, ?_, ?_, ?_⟩ <;> rw [List.map_map]
  · exact hleft
  · exact htop
  · exact hmaxRight
  · exact hmaxBottom

namespace Bounds

variable {k : Nat} {first e : ShapeElement} {others : List ShapeElement} {hull : Frame}

theorem left_le (h : hull.Bounds k first others) (he : e ∈ first :: others) :
    hull.left ≤ e.frame.left :=
  h.isHull.left.2 (List.mem_map_of_mem (List.mem_map_of_mem he))

theorem top_le (h : hull.Bounds k first others) (he : e ∈ first :: others) :
    hull.top ≤ e.frame.top :=
  h.isHull.top.2 (List.mem_map_of_mem (List.mem_map_of_mem he))

theorem le_right (h : hull.Bounds k first others) (he : e ∈ first :: others) :
    e.frame.right ≤ hull.right :=
  h.isHull.right.2 (List.mem_map_of_mem (List.mem_map_of_mem he))

theorem le_bottom (h : hull.Bounds k first others) (he : e ∈ first :: others) :
    e.frame.bottom ≤ hull.bottom :=
  h.isHull.bottom.2 (List.mem_map_of_mem (List.mem_map_of_mem he))

theorem isLeast_left (h : hull.Bounds k first others) :
    IsLeast {q | ∃ e ∈ first :: others, e.frame.left = q} hull.left := by
  have hset : {q | q ∈ ((first :: others).map ShapeElement.frame).map Frame.left} =
      {q | ∃ e ∈ first :: others, e.frame.left = q} := by
    ext q
    simp only [List.mem_map, exists_exists_and_eq_and, Set.mem_ofPred_eq]
  exact hset ▸ h.isHull.left

theorem isGreatest_right (h : hull.Bounds k first others) :
    IsGreatest {q | ∃ e ∈ first :: others, e.frame.right = q} hull.right := by
  have hset : {q | q ∈ ((first :: others).map ShapeElement.frame).map Frame.right} =
      {q | ∃ e ∈ first :: others, e.frame.right = q} := by
    ext q
    simp only [List.mem_map, exists_exists_and_eq_and, Set.mem_ofPred_eq]
  exact hset ▸ h.isHull.right

theorem column_eq (h : hull.Bounds k first others) {x : Number} (hx : x.Near k)
    (hle : hull.left ≤ x.value) : cellOf x unitsPerColumn (originOf first others).x =
      .ok (cellAt 10 (x.value - hull.left)) := by
  rw [← h.left] at hle ⊢
  exact cellOf_column hx h.x hle

theorem row_eq (h : hull.Bounds k first others) {y : Number} (hy : y.Near k)
    (hle : hull.top ≤ y.value) : cellOf y unitsPerRow (originOf first others).y =
      .ok (cellAt 20 (y.value - hull.top)) := by
  rw [← h.top] at hle ⊢
  exact cellOf_row hy h.y hle

theorem box_eq (h : hull.Bounds k first others) (he : e ∈ first :: others) :
    e.box (originOf first others) = .ok (hull.boxIn e.frame) := by
  have hexact := h.exact e he
  have hle := h.left_le he
  have htop := h.top_le he
  obtain ⟨r, hr, hright, hrightValue⟩ := hexact.exists_right
  obtain ⟨b, hb, hbottom, hbottomValue⟩ := hexact.exists_bottom
  have hrightCell := h.column_eq hright (by
    rw [hrightValue]
    exact hle.trans hexact.left_le_right)
  have hbottomCell := h.row_eq hbottom (by
    rw [hbottomValue]
    exact htop.trans hexact.top_le_bottom)
  rw [hrightValue] at hrightCell
  rw [hbottomValue] at hbottomCell
  exact bind_eq_ok (h.column_eq hexact.x hle) (bind_eq_ok (h.row_eq hexact.y htop) (bind_eq_ok hr
    (bind_eq_ok hrightCell (bind_eq_ok hb (bind_eq_ok hbottomCell rfl)))))

end Bounds

/-! ### Places of boxes -/

variable {hull f g : Frame}

/-- A box of three columns at least needs a column behind its first one. -/
theorem right_boxIn_lt_iff (hright : f.right ≤ hull.right) :
    (hull.boxIn f).right < hull.canvas.width ↔
      cellAt 10 (f.left - hull.left) < cellAt 10 (hull.right - hull.left) := by
  have hcell := cellAt_mono 10 (sub_le_sub_right hright hull.left)
  simp only [boxIn, canvas, Canvas.empty, padding]
  omega

/-- Below a frame there is room for a box of two rows. -/
theorem bottom_boxIn_lt (hle : f.top ≤ f.bottom) (hbottom : f.bottom ≤ hull.bottom) :
    (hull.boxIn f).bottom < hull.canvas.height := by
  have htop := cellAt_mono 20 (sub_le_sub_right hle hull.top)
  have hcell := cellAt_mono 20 (sub_le_sub_right hbottom hull.top)
  simp only [boxIn, canvas, Canvas.empty, padding]
  omega

/-- Frames one of which ends before the other begins have boxes one of which does, provided that
their sizes make up for the least sizes of boxes. -/
theorem Apart.disjoint_boxIn (h : f.Apart g) (hf : f.left + 40 ≤ f.right)
    (hf' : f.top + 60 ≤ f.bottom) (hg : g.left + 40 ≤ g.right) (hg' : g.top + 60 ≤ g.bottom) :
    (hull.boxIn f).Disjoint (hull.boxIn g) := by
  -- At these sizes the least width and height of a box play no part, so a box ends before the cell
  -- of the right or lower end of its frame.
  have hwide : ∀ {f : Frame}, f.left + 40 ≤ f.right →
      cellAt 10 (f.left - hull.left) + (4 : Nat) ≤ cellAt 10 (f.right - hull.left) := by
    intro f hf
    refine cellAt_add_le (by decide) _ ?_
    push_cast
    linarith
  have hhigh : ∀ {f : Frame}, f.top + 60 ≤ f.bottom →
      cellAt 20 (f.top - hull.top) + (3 : Nat) ≤ cellAt 20 (f.bottom - hull.top) := by
    intro f hf
    refine cellAt_add_le (by decide) _ ?_
    push_cast
    linarith
  have hcolumn : ∀ {p q : Rat}, p ≤ q → cellAt 10 (p - hull.left) ≤ cellAt 10 (q - hull.left) :=
    fun hle => cellAt_mono _ (sub_le_sub_right hle _)
  have hrow : ∀ {p q : Rat}, p ≤ q → cellAt 20 (p - hull.top) ≤ cellAt 20 (q - hull.top) :=
    fun hle => cellAt_mono _ (sub_le_sub_right hle _)
  have hfWide := hwide hf
  have hgWide := hwide hg
  have hfHigh := hhigh hf'
  have hgHigh := hhigh hg'
  rintro ⟨x, y⟩ ⟨hin, hin'⟩
  rw [Box.contains_iff] at hin hin'
  simp only [boxIn] at hin hin'
  rcases h with h | h | h | h
  · have hcell := hcolumn h
    omega
  · have hcell := hcolumn h
    omega
  · have hcell := hrow h
    omega
  · have hcell := hrow h
    omega

end Frame

end Flowchart
