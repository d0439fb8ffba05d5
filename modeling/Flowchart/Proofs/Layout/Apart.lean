import Mathlib.Order.CompletePartialOrder
import Mathlib.Tactic.FinCases
import Flowchart.Proofs.Layout.Rows
import Flowchart.Proofs.Number.Exact

/-! # Nodes stand apart

The settings of a layout are exact for a number of nodes when they lie on a grid and the extent of
that many nodes stays below `2 ^ 52` steps of it (`Settings.Exact`).  No step of a placement then
rounds, and a node stands at the corner that its row and its place in the row have
(`Settings.PlacedAt`).  The nodes of a row are one pitch apart, and rows one level; since settings
without fault have neither a negative gap nor levels that are lower than nodes, no two nodes
overlap (`Diagram.disjoint_interior_of_positions`). -/

namespace Flowchart

namespace Settings

/-! ### Values of settings -/

/-- All settings are numbers with a value. -/
def Finite (s : Settings) : Prop := ∀ field, (s.get field).Is (s.get field).value

/-- The values of settings without fault. -/
structure Proper (s : Settings) : Prop where
  nodeWidth : 0 < s.nodeWidth.value
  nodeHeight : 0 < s.nodeHeight.value
  levelHeight : s.nodeHeight.value ≤ s.levelHeight.value
  horizontalGap : 0 ≤ s.horizontalGap.value
  canvasWidth : 0 < s.canvasWidth.value
  topMargin : 0 ≤ s.topMargin.value
  minMargin : 0 ≤ s.minMargin.value

theorem proper_of_fault?_eq_none {s : Settings} (h : s.fault? = none) (hs : s.Finite) :
    s.Proper := by
  have hzero : (0 : Number).Is 0 := rfl
  simp only [fault?, Option.orElse_eq_none, Option.map_eq_none_iff, List.find?_eq_none] at h
  obtain ⟨hpositive, hnonnegative, hlevel⟩ := h
  have hpos : ∀ field ∈ Field.positive, 0 < (s.get field).value := by
    intro field hfield
    have hle := hpositive field hfield
    rw [(hs field).le_iff hzero, not_le] at hle
    exact hle
  have hnonneg : ∀ field ∈ Field.nonnegative, 0 ≤ (s.get field).value := by
    intro field hfield
    have hlt := hnonnegative field hfield
    rw [(hs field).lt_iff hzero, not_lt] at hlt
    exact hlt
  have hheight : s.nodeHeight.value ≤ s.levelHeight.value := by
    have hlt := (hs .levelHeight).lt_iff (hs .nodeHeight)
    by_contra hlow
    rw [get, get, ← not_le] at hlt
    rw [if_pos (hlt.mpr hlow)] at hlevel
    cases hlevel
  exact {
    nodeWidth := hpos .nodeWidth (by decide)
    nodeHeight := hpos .nodeHeight (by decide)
    levelHeight := hheight
    horizontalGap := hnonneg .horizontalGap (by decide)
    canvasWidth := hpos .canvasWidth (by decide)
    topMargin := hnonneg .topMargin (by decide)
    minMargin := hnonneg .minMargin (by decide) }

/-- A bound for the coordinates of a number of nodes. -/
def extent (s : Settings) (count : Nat) : Rat :=
  s.minMargin.value + s.canvasWidth.value + s.topMargin.value +
    count * (s.nodeWidth.value + s.horizontalGap.value + s.levelHeight.value)

/-- The distance from one column to the next. -/
def pitch (s : Settings) : Rat := s.nodeWidth.value + s.horizontalGap.value

/-- The left edge of a node in a row. -/
def cornerX (s : Settings) (index count : Nat) : Rat :=
  max s.minMargin.value ((s.canvasWidth.value - count * s.pitch) / 2) + index * s.pitch

/-- The upper edge of the nodes of a level. -/
def cornerY (s : Settings) (level : Nat) : Rat := level * s.levelHeight.value + s.topMargin.value

/-- Settings with which a number of nodes is placed without rounding: they lie on the grid of
`2 ^ -k`, and half steps of it are fine enough for all coordinates. -/
structure Exact (s : Settings) (k count : Nat) : Prop where
  fine : k < 1074
  finite : s.Finite
  whole : ∀ field, OnGrid k (s.get field).value
  small : s.extent count * 2 ^ k < 2 ^ 52

variable {s : Settings} {k n index count level : Nat} {q : Rat}

theorem exact_of_integral (hintegral : ∀ field, ∃ m : Int, s.get field = .int m)
    (hsmall : s.extent count < 2 ^ 52) : s.Exact 0 count where
  fine := by decide
  finite field := by
    obtain ⟨m, hm⟩ := hintegral field
    rw [hm]
    exact Number.Is.is_value (.int m)
  whole field := by
    obtain ⟨m, hm⟩ := hintegral field
    rw [hm]
    exact .intCast 0 m
  small := by rwa [pow_zero, mul_one]

theorem extent_eq (s : Settings) (count : Nat) :
    s.extent count = s.minMargin.value + s.canvasWidth.value + s.topMargin.value +
      (count * s.pitch + count * s.levelHeight.value) := by
  unfold extent pitch
  ring

theorem cornerX_eq_add (s : Settings) (index count : Nat) :
    s.cornerX index count = s.cornerX 0 count + index * s.pitch := by
  rw [cornerX, cornerX, Nat.cast_zero, zero_mul, add_zero]

namespace Proper

variable (h : s.Proper)
include h

theorem pitch_pos : 0 < s.pitch := add_pos_of_pos_of_nonneg h.nodeWidth h.horizontalGap

theorem nodeWidth_le_pitch : s.nodeWidth.value ≤ s.pitch := le_add_of_nonneg_right h.horizontalGap

theorem levelHeight_pos : 0 < s.levelHeight.value := lt_of_lt_of_le h.nodeHeight h.levelHeight

theorem mul_pitch_nonneg (count : Nat) : 0 ≤ count * s.pitch :=
  mul_nonneg (Nat.cast_nonneg _) h.pitch_pos.le

theorem mul_levelHeight_nonneg (count : Nat) : 0 ≤ count * s.levelHeight.value :=
  mul_nonneg (Nat.cast_nonneg _) h.levelHeight_pos.le

/-- The extent has room for the columns of a row beside the margins and the width of the canvas. -/
theorem mul_pitch_le_extent (hcount : count ≤ n) :
    s.minMargin.value + s.canvasWidth.value + count * s.pitch ≤ s.extent n := by
  have hcolumns : count * s.pitch ≤ n * s.pitch :=
    mul_le_mul_of_nonneg_right (Nat.cast_le.mpr hcount) h.pitch_pos.le
  have hlevels := h.mul_levelHeight_nonneg n
  have htop := h.topMargin
  rw [extent_eq]
  linarith

/-- The extent has room for the levels below the margin. -/
theorem mul_levelHeight_le_extent (hcount : count ≤ n) :
    s.topMargin.value + count * s.levelHeight.value ≤ s.extent n := by
  have hlevels : count * s.levelHeight.value ≤ n * s.levelHeight.value :=
    mul_le_mul_of_nonneg_right (Nat.cast_le.mpr hcount) h.levelHeight_pos.le
  have hcolumns := h.mul_pitch_nonneg n
  have hcanvas := h.canvasWidth
  have hmargin := h.minMargin
  rw [extent_eq]
  linarith

theorem setting_le_extent (hpos : 0 < n) (field : Field)
    (hfield : field ∈ Field.positive ++ Field.nonnegative) :
    0 ≤ (s.get field).value ∧ (s.get field).value ≤ s.extent n := by
  have hcolumns := h.mul_pitch_le_extent hpos
  have hlevels := h.mul_levelHeight_le_extent hpos
  rw [Nat.cast_one, one_mul] at hcolumns hlevels
  rw [pitch] at hcolumns
  obtain ⟨hwidth, hheight, hlevel, hgap, hcanvas, htop, hmargin⟩ := h
  fin_cases hfield <;> simp only [get] <;> constructor <;> linarith

/-! ### Corners -/

theorem minMargin_le_cornerX (index count : Nat) : s.minMargin.value ≤ s.cornerX index count :=
  (le_max_left _ _).trans (le_add_of_nonneg_right (h.mul_pitch_nonneg index))

theorem topMargin_le_cornerY (level : Nat) : s.topMargin.value ≤ s.cornerY level :=
  le_add_of_nonneg_left (h.mul_levelHeight_nonneg level)

/-- The right edge of a node stays within the extent of all. -/
theorem cornerX_le_extent (count : Nat) (hindex : index < n) :
    s.cornerX index count + s.nodeWidth.value ≤ s.extent n := by
  have hcolumns := h.mul_pitch_le_extent hindex
  have hcount := h.mul_pitch_nonneg count
  have hwidth := h.nodeWidth_le_pitch
  have hcanvas := h.canvasWidth
  have hmargin := h.minMargin
  have hstart : max s.minMargin.value ((s.canvasWidth.value - count * s.pitch) / 2) ≤
      s.minMargin.value + s.canvasWidth.value := max_le (by linarith) (by linarith)
  push_cast at hcolumns
  rw [cornerX]
  linarith

/-- The lower edge of a node stays within the extent of all. -/
theorem cornerY_le_extent (hlevel : level < n) :
    s.cornerY level + s.nodeHeight.value ≤ s.extent n := by
  have hlevels := h.mul_levelHeight_le_extent hlevel
  have hheight := h.levelHeight
  push_cast at hlevels
  rw [cornerY]
  linarith

end Proper

namespace Exact

variable (h : s.Exact k n)
include h

theorem fits (hq : OnGrid (k + 1) q) (hle : |q| ≤ s.extent n) : Fits (k + 1) q := by
  refine ⟨h.fine, hq, ?_⟩
  have hstep : |q| * 2 ^ k ≤ s.extent n * 2 ^ k := mul_le_mul_of_nonneg_right hle (by positivity)
  have hsmall := h.small
  rw [pow_succ]
  linarith

theorem fits_of_nonneg (hq : OnGrid (k + 1) q) (hnonneg : 0 ≤ q) (hle : q ≤ s.extent n) :
    Fits (k + 1) q :=
  h.fits hq (by rwa [abs_of_nonneg hnonneg])

theorem onGrid_pitch : OnGrid k s.pitch := (h.whole .nodeWidth).add (h.whole .horizontalGap)

theorem onGrid_free (count : Nat) : OnGrid k (s.canvasWidth.value - count * s.pitch) :=
  (h.whole .canvasWidth).sub (h.onGrid_pitch.natCast_mul count)

theorem onGrid_cornerX (index count : Nat) : OnGrid (k + 1) (s.cornerX index count) := by
  refine OnGrid.add ?_ (h.onGrid_pitch.natCast_mul index).succ
  rcases max_choice s.minMargin.value ((s.canvasWidth.value - count * s.pitch) / 2) with heq | heq
  · rw [heq]
    exact (h.whole .minMargin).succ
  · rw [heq]
    exact (h.onGrid_free count).half

theorem onGrid_cornerY (level : Nat) : OnGrid (k + 1) (s.cornerY level) :=
  (((h.whole .levelHeight).natCast_mul level).add (h.whole .topMargin)).succ

variable (hs : s.Proper)
include hs

theorem fits_setting (hpos : 0 < n) (field : Field)
    (hfield : field ∈ Field.positive ++ Field.nonnegative) : Fits (k + 1) (s.get field).value := by
  obtain ⟨hnonneg, hle⟩ := hs.setting_le_extent hpos field hfield
  exact h.fits_of_nonneg (h.whole field).succ hnonneg hle

theorem fits_mul_pitch (hcount : count ≤ n) : Fits (k + 1) (count * s.pitch) := by
  have hle := hs.mul_pitch_le_extent hcount
  have hcanvas := hs.canvasWidth
  have hmargin := hs.minMargin
  exact h.fits_of_nonneg (h.onGrid_pitch.natCast_mul count).succ (hs.mul_pitch_nonneg count)
    (by linarith)

theorem fits_mul_levelHeight (hcount : count ≤ n) :
    Fits (k + 1) (count * s.levelHeight.value) := by
  have hle := hs.mul_levelHeight_le_extent hcount
  have htop := hs.topMargin
  exact h.fits_of_nonneg ((h.whole .levelHeight).natCast_mul count).succ
    (hs.mul_levelHeight_nonneg count) (by linarith)

theorem fits_free (hcount : count ≤ n) :
    Fits (k + 1) (s.canvasWidth.value - count * s.pitch) ∧
      Fits (k + 1) ((s.canvasWidth.value - count * s.pitch) / 2) := by
  have hle := hs.mul_pitch_le_extent hcount
  have hcount := hs.mul_pitch_nonneg count
  have hcanvas := hs.canvasWidth
  have hmargin := hs.minMargin
  have hfree : |s.canvasWidth.value - count * s.pitch| ≤ s.extent n :=
    abs_sub_le_of_nonneg_of_le hcanvas.le (by linarith) hcount (by linarith)
  refine ⟨h.fits (h.onGrid_free count).succ hfree, h.fits (h.onGrid_free count).half ?_⟩
  rw [abs_div, abs_two]
  linarith [abs_nonneg (s.canvasWidth.value - count * s.pitch)]

theorem fits_cornerX (hindex : index < n) (count : Nat) :
    Fits (k + 1) (s.cornerX index count) := by
  have hleft := hs.minMargin_le_cornerX index count
  have hright := hs.cornerX_le_extent count hindex
  have hwidth := hs.nodeWidth
  have hmargin := hs.minMargin
  exact h.fits_of_nonneg (h.onGrid_cornerX index count) (by linarith) (by linarith)

theorem fits_cornerY (hlevel : level < n) : Fits (k + 1) (s.cornerY level) := by
  have hupper := hs.topMargin_le_cornerY level
  have hlower := hs.cornerY_le_extent hlevel
  have hheight := hs.nodeHeight
  have htop := hs.topMargin
  exact h.fits_of_nonneg (h.onGrid_cornerY level) (by linarith) (by linarith)

/-- A positive point of a grid is one step at least, so the number of nodes is small. -/
theorem natCast_fits (hcount : count ≤ n) : Fits 0 count := by
  obtain ⟨m, hm⟩ := h.onGrid_pitch
  have hpitch : (1 : Rat) ≤ s.pitch * 2 ^ k := by
    have hpos : (0 : Rat) < m := by
      rw [← hm]
      exact mul_pos hs.pitch_pos (by positivity)
    rw [hm]
    exact_mod_cast hpos
  have hextent : count * s.pitch ≤ s.extent n := by
    have hle := hs.mul_pitch_le_extent hcount
    have hcanvas := hs.canvasWidth
    have hmargin := hs.minMargin
    linarith
  have hle : (count : Rat) ≤ s.extent n * 2 ^ k :=
    calc (count : Rat) ≤ count * (s.pitch * 2 ^ k) :=
          le_mul_of_one_le_right (Nat.cast_nonneg _) hpitch
      _ = count * s.pitch * 2 ^ k := (mul_assoc _ _ _).symm
      _ ≤ s.extent n * 2 ^ k := mul_le_mul_of_nonneg_right hextent (by positivity)
  have hsmall := h.small
  refine ⟨by omega, .natCast 0 count, ?_⟩
  rw [abs_of_nonneg (Nat.cast_nonneg _)]
  linarith

/-! ### Placing a node -/

theorem exists_columnStep (hpos : 0 < n) : ∃ step, s.columnStep = .ok step ∧ step.Is s.pitch := by
  have hfits := h.fits_mul_pitch hs hpos
  rw [Nat.cast_one, one_mul] at hfits
  exact (h.finite .nodeWidth).add (h.finite .horizontalGap)
    (h.fits_setting hs hpos .nodeWidth (by decide))
    (h.fits_setting hs hpos .horizontalGap (by decide)) hfits

theorem exists_rowStart (hpos : 0 < n) (hcount : count ≤ n) {step : Number}
    (hstep : step.Is s.pitch) : ∃ start, s.rowStart count step = .ok start ∧
      start.Is (s.cornerX 0 count) := by
  have hpitch := h.fits_mul_pitch hs hpos
  rw [Nat.cast_one, one_mul] at hpitch
  have hwidthFits := h.fits_mul_pitch hs hcount
  obtain ⟨hfreeFits, hhalfFits⟩ := h.fits_free hs hcount
  obtain ⟨width, hwidth, hwidthIs⟩ :=
    (Number.Is.natCast count).mul hstep (h.natCast_fits hs hcount) hpitch hwidthFits
  obtain ⟨free, hfree, hfreeIs⟩ := (h.finite .canvasWidth).sub hwidthIs
    (h.fits_setting hs hpos .canvasWidth (by decide)) hwidthFits hfreeFits
  obtain ⟨half, hhalf, hhalfIs⟩ := hfreeIs.half hhalfFits
  refine ⟨s.minMargin.max half, bind_eq_ok hwidth (bind_eq_ok hfree (bind_eq_ok hhalf rfl)), ?_⟩
  rw [cornerX, Nat.cast_zero, zero_mul, add_zero]
  exact (h.finite .minMargin).max hhalfIs

theorem exists_place (hindex : index < count) (hcount : count ≤ n) (hlevel : level < n) :
    ∃ p, s.place level index count = .ok p ∧ p.x.Is (s.cornerX index count) ∧
      p.y.Is (s.cornerY level) := by
  have hpos : 0 < n := by omega
  have hpitch := h.fits_mul_pitch hs hpos
  rw [Nat.cast_one, one_mul] at hpitch
  have hshiftFits := h.fits_mul_pitch hs (show index ≤ n by omega)
  have hdropFits := h.fits_mul_levelHeight hs hlevel.le
  have hcornerFits := h.fits_cornerX hs (show index < n by omega) count
  rw [cornerX_eq_add] at hcornerFits ⊢
  obtain ⟨step, hstep, hstepIs⟩ := h.exists_columnStep hs hpos
  obtain ⟨start, hstart, hstartIs⟩ := h.exists_rowStart hs hpos hcount hstepIs
  obtain ⟨shift, hshift, hshiftIs⟩ := (Number.Is.natCast index).mul hstepIs
    (h.natCast_fits hs (by omega)) hpitch hshiftFits
  obtain ⟨x, hx, hxIs⟩ :=
    hstartIs.add hshiftIs (h.fits_cornerX hs hpos count) hshiftFits hcornerFits
  obtain ⟨drop, hdrop, hdropIs⟩ := (Number.Is.natCast level).mul (h.finite .levelHeight)
    (h.natCast_fits hs hlevel.le) (h.fits_setting hs hpos .levelHeight (by decide)) hdropFits
  obtain ⟨y, hy, hyIs⟩ := hdropIs.add (h.finite .topMargin) hdropFits
    (h.fits_setting hs hpos .topMargin (by decide)) (h.fits_cornerY hs hlevel)
  exact ⟨⟨x, y⟩, bind_eq_ok hstep (bind_eq_ok hstart (bind_eq_ok hshift (bind_eq_ok hx
    (bind_eq_ok hdrop (bind_eq_ok hy rfl))))), hxIs, hyIs⟩

theorem exists_placeRows {rows : List (List String)} (hrows : rows.length ≤ n)
    (hrow : ∀ row ∈ rows, row.length ≤ n) : ∃ positions, s.placeRows rows = .ok positions := by
  have hplaced : ∀ entry ∈ rows.zipIdx, ∃ points, s.placeRow entry.2 entry.1 = .ok points := by
    intro ⟨row, level⟩ hmem
    have hget := List.mem_zipIdx_iff_getElem?.mp hmem
    obtain ⟨hlevel, -⟩ := List.getElem?_eq_some_iff.mp hget
    refine exists_mapM_eq_ok fun ⟨id, index⟩ hmem => ?_
    obtain ⟨hindex, -⟩ := List.getElem?_eq_some_iff.mp (List.mem_zipIdx_iff_getElem?.mp hmem)
    have hcount := hrow row (List.mem_of_getElem? hget)
    obtain ⟨p, hp, -⟩ := h.exists_place hs hindex hcount (show level < n by omega)
    exact ⟨(id, p), bind_eq_ok hp rfl⟩
  obtain ⟨placed, hplaced⟩ := exists_mapM_eq_ok hplaced
  exact ⟨placed.flatten, by rw [placeRows]; exact congrArg (List.flatten <$> ·) hplaced⟩

end Exact

/-- A node stands at the corner that its row and its place in the row have. -/
structure PlacedAt (s : Settings) (level index count : Nat) (p : Point) : Prop where
  x : p.x.Is (s.cornerX index count)
  y : p.y.Is (s.cornerY level)

theorem exists_of_mem_placeRows {rows : List (List String)} {positions : Positions}
    (h : s.placeRows rows = .ok positions) {id : String} {p : Point} (hmem : (id, p) ∈ positions) :
    ∃ level index row, rows[level]? = some row ∧ row[index]? = some id ∧
      s.place level index row.length = .ok p := by
  obtain ⟨placed, hplaced, rfl⟩ := exists_of_map_eq_ok h
  obtain ⟨points, hpoints, hmem⟩ := List.mem_flatten.mp hmem
  obtain ⟨⟨row, level⟩, hrow, hpoints⟩ := exists_of_mem_of_mapM_eq_ok hplaced hpoints
  obtain ⟨⟨id', index⟩, hid, hpoint⟩ := exists_of_mem_of_mapM_eq_ok hpoints hmem
  obtain ⟨p', hp', hpair⟩ := exists_of_bind_eq_ok hpoint
  obtain ⟨rfl, rfl⟩ := Prod.mk.inj (Except.ok.inj hpair)
  exact ⟨level, index, row, List.mem_zipIdx_iff_getElem?.mp hrow,
    List.mem_zipIdx_iff_getElem?.mp hid, hp'⟩

/-! ### Distances -/

theorem Proper.cornerX_add_le (h : s.Proper) (count : Nat) {i j : Nat} (hlt : i < j) :
    s.cornerX i count + s.nodeWidth.value ≤ s.cornerX j count := by
  have hcolumns : ((i + 1 : Nat) : Rat) * s.pitch ≤ j * s.pitch :=
    mul_le_mul_of_nonneg_right (Nat.cast_le.mpr hlt) h.pitch_pos.le
  have hwidth := h.nodeWidth_le_pitch
  push_cast at hcolumns
  rw [cornerX, cornerX]
  linarith

theorem Proper.cornerY_add_le (h : s.Proper) {i j : Nat} (hlt : i < j) :
    s.cornerY i + s.nodeHeight.value ≤ s.cornerY j := by
  have hlevels : ((i + 1 : Nat) : Rat) * s.levelHeight.value ≤ j * s.levelHeight.value :=
    mul_le_mul_of_nonneg_right (Nat.cast_le.mpr hlt) h.levelHeight_pos.le
  have hheight := h.levelHeight
  push_cast at hlevels
  rw [cornerY, cornerY]
  linarith

end Settings

/-! ### Frames -/

/-- A rectangle of the drawing. -/
structure Frame where
  left : Rat
  top : Rat
  right : Rat
  bottom : Rat

namespace Frame

/-- The points inside a frame, without its edge. -/
def interior (f : Frame) : Set (Rat × Rat) :=
  {p | f.left < p.1 ∧ p.1 < f.right ∧ f.top < p.2 ∧ p.2 < f.bottom}

/-- One frame ends before the other begins, along a row or from row to row. -/
def Apart (f g : Frame) : Prop :=
  f.right ≤ g.left ∨ g.right ≤ f.left ∨ f.bottom ≤ g.top ∨ g.bottom ≤ f.top

theorem Apart.disjoint_interior {f g : Frame} (h : f.Apart g) :
    Disjoint f.interior g.interior := by
  rw [Set.disjoint_left]
  rintro p ⟨hleft, hright, htop, hbottom⟩ ⟨hleft', hright', htop', hbottom'⟩
  rcases h with h | h | h | h <;> linarith

end Frame

/-- The frame of a node at a corner. -/
def Settings.frame (s : Settings) (corner : Point) : Frame where
  left := corner.x.value
  top := corner.y.value
  right := corner.x.value + s.nodeWidth.value
  bottom := corner.y.value + s.nodeHeight.value

/-- Nodes of different rows or different places in a row are apart. -/
theorem Settings.PlacedAt.apart {s : Settings} (hs : s.Proper)
    {level index count level' index' count' : Nat} {p p' : Point}
    (h : s.PlacedAt level index count p) (h' : s.PlacedAt level' index' count' p')
    (hcount : level = level' → count = count') (hne : level = level' → index ≠ index') :
    (s.frame p).Apart (s.frame p') := by
  unfold Frame.Apart frame
  dsimp only
  rw [h.x.value_eq, h.y.value_eq, h'.x.value_eq, h'.y.value_eq]
  rcases Nat.lt_trichotomy level level' with hlt | rfl | hgt
  · exact .inr (.inr (.inl (hs.cornerY_add_le hlt)))
  · obtain rfl := hcount rfl
    rcases Nat.lt_or_gt_of_ne (hne rfl) with hlt | hgt
    · exact .inl (hs.cornerX_add_le count hlt)
    · exact .inr (.inl (hs.cornerX_add_le count hgt))
  · exact .inr (.inr (.inr (hs.cornerY_add_le hgt)))

namespace Diagram

/-- The nodes of a diagram are placed row by row, and nothing is rounded. -/
theorem exists_positions {d : Diagram} {s : Settings} {k n : Nat} (h : s.Exact k n) (hs : s.Proper)
    (hn : d.edges.length < n) : ∃ positions, d.positions s = .ok positions ∧
      ∀ id p, positions.of? id = some p → ∃ level index row, level < n ∧ index < row.length ∧
        row.length ≤ n ∧ d.levels.rows[level]? = some row ∧ row[index]? = some id ∧
        s.PlacedAt level index row.length p := by
  have hrows : d.levels.rows.length ≤ n := Nat.le_trans d.length_rows_le hn
  have hrow : ∀ row ∈ d.levels.rows, row.length ≤ n :=
    fun row hrow => Nat.le_trans (d.length_row_le hrow) hn
  obtain ⟨positions, hpositions⟩ := h.exists_placeRows hs hrows hrow
  refine ⟨positions, hpositions, fun id p hp => ?_⟩
  obtain ⟨level, index, row, hget, hid, hplace⟩ :=
    Settings.exists_of_mem_placeRows hpositions (mem_of_lookup_eq_some hp)
  obtain ⟨hlevel, -⟩ := List.getElem?_eq_some_iff.mp hget
  obtain ⟨hindex, -⟩ := List.getElem?_eq_some_iff.mp hid
  have hlength := hrow row (List.mem_of_getElem? hget)
  obtain ⟨p', hp', hx, hy⟩ := h.exists_place hs hindex hlength (show level < n by omega)
  obtain rfl := Except.ok.inj (hplace.symm.trans hp')
  exact ⟨level, index, row, by omega, hindex, hlength, hget, hid, hx, hy⟩

/-- Nodes are placed behind the margins, and apart from each other. -/
theorem exists_apart_positions {d : Diagram} {s : Settings} {k n : Nat} (h : s.Exact k n)
    (hs : s.Proper) (hn : d.edges.length < n) : ∃ positions, d.positions s = .ok positions ∧
      (∀ id p, positions.of? id = some p → p.x.Is p.x.value ∧ p.y.Is p.y.value ∧
        s.minMargin.value ≤ p.x.value ∧ s.topMargin.value ≤ p.y.value) ∧
      ∀ id id' p p', id ≠ id' → positions.of? id = some p → positions.of? id' = some p' →
        (s.frame p).Apart (s.frame p') := by
  obtain ⟨positions, hpositions, hplaced⟩ := exists_positions h hs hn
  refine ⟨positions, hpositions, fun id p hp => ?_, fun id id' p p' hne hp hp' => ?_⟩
  · obtain ⟨level, index, row, -, -, -, -, -, hat⟩ := hplaced id p hp
    refine ⟨hat.x.is_value, hat.y.is_value, ?_, ?_⟩
    · rw [hat.x.value_eq]
      exact hs.minMargin_le_cornerX _ _
    · rw [hat.y.value_eq]
      exact hs.topMargin_le_cornerY _
  · obtain ⟨level, index, row, -, -, -, hrow, hid, hat⟩ := hplaced id p hp
    obtain ⟨level', index', row', -, -, -, hrow', hid', hat'⟩ := hplaced id' p' hp'
    have hsame : level = level' → row = row' := by
      rintro rfl
      exact Option.some.inj (hrow.symm.trans hrow')
    refine hat.apart hs hat' (fun hlevel => by rw [hsame hlevel]) ?_
    rintro hlevel rfl
    rw [← hsame hlevel] at hid'
    exact hne (Option.some.inj (hid.symm.trans hid'))

/-- Nodes that are placed with integers do not overlap: as long as the extent of the drawing is
small, all coordinates are exact, behind the margins, and the rectangles of two nodes have no inner
point in common. -/
theorem disjoint_interior_of_positions {d : Diagram} {s : Settings} (hvalid : s.fault? = none)
    (hintegral : ∀ field, ∃ m : Int, s.get field = .int m)
    (hsmall : s.extent (d.nodes.length + d.edges.length + 1) < 2 ^ 52) :
    ∃ positions, d.positions s = .ok positions ∧
      (∀ id p, positions.of? id = some p → p.x.Is p.x.value ∧ p.y.Is p.y.value ∧
        s.minMargin.value ≤ p.x.value ∧ s.topMargin.value ≤ p.y.value) ∧
      ∀ id id' p p', id ≠ id' → positions.of? id = some p → positions.of? id' = some p' →
        Disjoint (s.frame p).interior (s.frame p').interior := by
  have hexact := Settings.exact_of_integral hintegral hsmall
  have hproper := Settings.proper_of_fault?_eq_none hvalid hexact.finite
  obtain ⟨positions, hpositions, hbehind, hapart⟩ :=
    exists_apart_positions (d := d) hexact hproper (by omega)
  exact ⟨positions, hpositions, hbehind, fun id id' p p' hne hp hp' =>
    (hapart id id' p p' hne hp hp').disjoint_interior⟩

/-- A root above two nodes, one of which leads to the other. -/
def fork : Diagram where
  kind := .flowchart
  direction := .topBottom
  nodes := [.implicit "a", .implicit "b", .implicit "c"]
  edges := [⟨"a", "b", none, .arrow⟩, ⟨"a", "c", none, .arrow⟩, ⟨"c", "b", none, .arrow⟩]

/-- Settings without gaps, whose rows start between two integers. -/
def tightSettings : Settings where
  nodeWidth := 7
  nodeHeight := 5
  levelHeight := 5
  horizontalGap := 0
  canvasWidth := 15
  topMargin := 0
  minMargin := 0
  fallbackX := 0
  fallbackY := 0

theorem disjoint_interior_of_positions_fork :
    tightSettings.fault? = none ∧ (∀ field, ∃ m : Int, tightSettings.get field = .int m) ∧
    tightSettings.extent (fork.nodes.length + fork.edges.length + 1) < 2 ^ 52 ∧
    fork.positions tightSettings = .ok [("a", ⟨.real (.finite 4), 0⟩),
      ("b", ⟨.real (.finite (1 / 2)), 5⟩), ("c", ⟨.real (.finite (15 / 2)), 5⟩)] ∧
    Disjoint (tightSettings.frame ⟨.real (.finite (1 / 2)), 5⟩).interior
      (tightSettings.frame ⟨.real (.finite (15 / 2)), 5⟩).interior := by
  have hvalid : tightSettings.fault? = none := by decide
  have hintegral : ∀ field, ∃ m : Int, tightSettings.get field = .int m := by
    intro field
    cases field <;> exact ⟨_, rfl⟩
  have hsmall : tightSettings.extent (fork.nodes.length + fork.edges.length + 1) < 2 ^ 52 := by
    decide +kernel
  have hrun : fork.positions tightSettings = .ok [("a", ⟨.real (.finite 4), 0⟩),
      ("b", ⟨.real (.finite (1 / 2)), 5⟩), ("c", ⟨.real (.finite (15 / 2)), 5⟩)] := by
    decide +kernel
  obtain ⟨positions, hpositions, -, hdisjoint⟩ :=
    disjoint_interior_of_positions (d := fork) hvalid hintegral hsmall
  obtain rfl := Except.ok.inj (hpositions.symm.trans hrun)
  exact ⟨hvalid, hintegral, hsmall, hrun, hdisjoint "b" "c" _ _ (by decide) rfl rfl⟩

end Diagram

end Flowchart
