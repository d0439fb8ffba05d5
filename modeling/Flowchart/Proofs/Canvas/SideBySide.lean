import Flowchart.Proofs.Canvas.Labels
import Flowchart.Proofs.Canvas.Overflow
import Flowchart.Proofs.Canvas.Tiling
import Flowchart.Sorting

/-! # Texts side by side

Texts of which no two have a cell in common are written on an empty canvas.  What they leave is
known cell by cell (`Typeset`): each of them is shown, and everything else is as before.  So the
order of the writes does not matter (`Typeset.unique`).

Columns and characters differ where there are wide characters.  They agree again from text to text:
what a row shows from a column on is what is written of its texts from there on, blanks at the end
aside (`trimEnd_glyphs_drop`).  The result for the picture is `picture_of_writeAll`. -/

namespace Flowchart.Canvas

variable {c c' c'' : Canvas} {w : Writing} {ws : List Writing}

/-! ### Texts that are apart -/

namespace Writing

/-- A text takes a cell. -/
def Covers [Text.Measure] (w : Writing) (x y : Int) : Prop :=
  y = w.y ∧ w.x ≤ x ∧ x < w.x + Text.displayWidth w.text

/-- All cells of a text lie on a canvas. -/
def Within [Text.Measure] (w : Writing) (c : Canvas) : Prop := ∀ x y, w.Covers x y → c.Inside x y

/-- Two texts have no cell in common. -/
def Apart [Text.Measure] (a b : Writing) : Prop := ∀ x y, ¬ (a.Covers x y ∧ b.Covers x y)

theorem Apart.symm [Text.Measure] {a b : Writing} (h : a.Apart b) : b.Apart a :=
  fun x y hin => h x y hin.symm

theorem within_iff [Text.Measure] {w : Writing} {c : Canvas} :
    w.Within c ↔ Text.displayWidth w.text = 0 ∨
    0 ≤ w.y ∧ w.y < c.height ∧ 0 ≤ w.x ∧ w.x + Text.displayWidth w.text ≤ c.width := by
  constructor
  · intro h
    rcases Nat.eq_zero_or_pos (Text.displayWidth w.text) with hzero | hpos
    · exact .inl hzero
    · obtain ⟨htop, hbottom, hleft, -⟩ := h w.x w.y ⟨rfl, by omega⟩
      have hlast := (h (w.x + Text.displayWidth w.text - 1) w.y ⟨rfl, by omega⟩).2.2.2
      exact .inr ⟨htop, hbottom, hleft, by omega⟩
  · rintro h x y ⟨rfl, hle, hlt⟩
    unfold Inside
    omega

theorem apart_iff [Text.Measure] {a b : Writing} : a.Apart b ↔ a.y ≠ b.y ∨
    a.x + Text.displayWidth a.text ≤ b.x ∨ b.x + Text.displayWidth b.text ≤ a.x ∨
    Text.displayWidth a.text = 0 ∨ Text.displayWidth b.text = 0 := by
  constructor
  · intro h
    -- In one row, the text that begins further right would begin within the other one.
    have hfirst := h (max a.x b.x) a.y
    unfold Covers at hfirst
    omega
  · rintro h x y ⟨⟨rfl, hle, hlt⟩, hrow, hle', hlt'⟩
    omega

instance [Text.Measure] (w : Writing) (c : Canvas) : Decidable (w.Within c) :=
  decidable_of_iff _ within_iff.symm

instance [Text.Measure] (a b : Writing) : Decidable (a.Apart b) :=
  decidable_of_iff _ apart_iff.symm

theorem covers_iff_faces [Text.Measure] (w : Writing) (x y : Int) :
    w.Covers x y ↔ y = w.y ∧ w.x ≤ x ∧ x < w.x + (faces w.text.toList).length := by
  rw [length_faces]
  rfl

end Writing

/-- Writes texts one after the other and answers with the columns after them. -/
def writeAll [Text.Measure] (ws : List Writing) : Action (List Int) :=
  ws.mapM fun w => write w.x w.y w.text

/-- The second canvas shows some texts, and is the first one otherwise. -/
structure Typeset [Text.Measure] (ws : List Writing) (c c' : Canvas) : Prop where
  width : c'.width = c.width
  height : c'.height = c.height
  tags : ∀ x y, c'.tags? x y = c.tags? x y
  shows : ∀ w ∈ ws, c'.Shows w.x w.y (faces w.text.toList)
  same : SameOn (fun p => ∀ w ∈ ws, ¬ w.Covers p.1 p.2) c c'

theorem typeset_nil [Text.Measure] (c : Canvas) : Typeset [] c c :=
  ⟨rfl, rfl, fun _ _ => rfl, nofun, .refl _ c⟩

/-- A text that is apart from those that are written after it stays. -/
theorem Typeset.cons [Text.Measure] (h : Overlaid w.x w.y (faces w.text.toList) c c')
    (hws : Typeset ws c' c'')
    (hapart : ∀ w' ∈ ws, w.Apart w') : Typeset (w :: ws) c c'' where
  width := hws.width.trans h.width
  height := hws.height.trans h.height
  tags x y := (hws.tags x y).trans (h.tags x y)
  shows := by
    refine List.forall_mem_cons.mpr ⟨?_, hws.shows⟩
    refine h.shows.of_sameOn hws.same fun x hle hlt w' hw' hcovers => ?_
    exact hapart w' hw' x w.y ⟨(w.covers_iff_faces x w.y).mpr ⟨rfl, hle, hlt⟩, hcovers⟩
  same x y hout := by
    obtain ⟨hw, hrest⟩ := List.forall_mem_cons.mp hout
    rw [w.covers_iff_faces] at hw
    exact (hws.same x y hrest).trans (h.same x y hw)

theorem Typeset.of_perm [Text.Measure] (h : Typeset ws c c') {ws' : List Writing}
    (hperm : ws'.Perm ws) :
    Typeset ws' c c' where
  width := h.width
  height := h.height
  tags := h.tags
  shows w hw := h.shows w (hperm.mem_iff.mp hw)
  same x y hout := h.same x y fun w hw => hout w (hperm.mem_iff.mpr hw)

theorem Typeset.unique [Text.Measure] (h : Typeset ws c c') (h' : Typeset ws c c'') : c'' = c' := by
  refine ext_cell? (h'.width.trans h.width.symm) (h'.height.trans h.height.symm) fun x y => ?_
  refine cell?_eq_iff.mpr ⟨?_, (h'.tags x y).trans (h.tags x y).symm⟩
  by_cases hcovered : ∃ w ∈ ws, w.Covers x y
  · obtain ⟨w, hw, hcovers⟩ := hcovered
    obtain ⟨rfl, hle, hlt⟩ := (w.covers_iff_faces x y).mp hcovers
    have hi : (x - w.x).toNat < (faces w.text.toList).length := by omega
    have hx : w.x + ((x - w.x).toNat : Int) = x := by omega
    have hface := (h'.shows w hw _ hi).trans (h.shows w hw _ hi).symm
    rwa [hx] at hface
  · push Not at hcovered
    exact (h'.same x y hcovered).trans (h.same x y hcovered).symm

/-- A text whose cells lie on the canvas is written. -/
theorem exists_run_write [Text.Measure] (hin : w.Within c) :
    ∃ c', (write w.x w.y w.text).run c = .ok (w.x + Text.displayWidth w.text) c' ∧
      Overlaid w.x w.y (faces w.text.toList) c c' := by
  obtain ⟨c', hover, hrun⟩ := run_putFaces w.y (faces w.text.toList) w.x c
  have hroom : (faces w.text.toList).length ≤ c.room w.x w.y := by
    by_contra hlt
    refine c.not_inside_room w.x w.y (hin _ _ ?_)
    exact (w.covers_iff_faces _ _).mpr ⟨rfl, by omega, by omega⟩
  rw [if_pos hroom] at hrun
  rw [List.take_of_length_le hroom] at hover
  refine ⟨c', ?_, hover⟩
  rw [write, writeChars_eq_putFaces]
  exact run_bind_eq_ok hrun rfl

theorem exists_run_writeAll [Text.Measure] (hin : ∀ w ∈ ws, w.Within c)
    (hapart : ws.Pairwise Writing.Apart) :
    ∃ c', (writeAll ws).run c = .ok (ws.map fun w => w.x + Text.displayWidth w.text) c' ∧
      Typeset ws c c' := by
  induction ws generalizing c with
  | nil => exact ⟨c, rfl, typeset_nil c⟩
  | cons w ws ih =>
      obtain ⟨hw, hws⟩ := List.forall_mem_cons.mp hin
      obtain ⟨hfirst, hrest⟩ := List.pairwise_cons.mp hapart
      obtain ⟨c', hrun, hover⟩ := exists_run_write hw
      have hinside : ∀ x y, c'.Inside x y ↔ c.Inside x y := by
        intro x y
        rw [Inside, Inside, hover.width, hover.height]
      obtain ⟨c'', hruns, htypeset⟩ :=
        ih (fun w hw x y hcovers => (hinside x y).mpr (hws w hw x y hcovers)) hrest
      refine ⟨c'', ?_, htypeset.cons hover hfirst⟩
      rw [writeAll, List.mapM_cons]
      exact run_bind_eq_ok hrun (run_bind_eq_ok hruns rfl)

/-! ### Rows -/

/-- The texts of a row from left to right. -/
def rowTexts (ws : List Writing) (y : Int) : List Writing :=
  sortBy (fun a b => a.x ≤ b.x) (ws.filter fun w => w.y = y)

/-- What is written from a column on: texts, and a blank for every free column before a text. -/
def lineFrom [Text.Measure] : Nat → List Writing → List Char
  | _, [] => []
  | column, w :: rest =>
    List.replicate (w.x.toNat - column) ' ' ++ w.text.toList ++
      lineFrom (max column (w.x.toNat + Text.displayWidth w.text)) rest

theorem mem_rowTexts {y : Int} : w ∈ rowTexts ws y ↔ w ∈ ws ∧ w.y = y := by
  rw [rowTexts, (sortBy_perm _ _).mem_iff, List.mem_filter, decide_eq_true_eq]

theorem pairwise_rowTexts [Text.Measure] (hapart : ws.Pairwise Writing.Apart) (y : Int) :
    (rowTexts ws y).Pairwise fun a b => a.x ≤ b.x ∧ a.Apart b := by
  have hsorted : (rowTexts ws y).Pairwise fun a b => a.x ≤ b.x :=
    pairwise_sortBy_key Writing.x _
  have hrow : (rowTexts ws y).Pairwise Writing.Apart :=
    ((sortBy_perm _ _).pairwise_iff Writing.Apart.symm).mpr (hapart.sublist List.filter_sublist)
  exact hsorted.and hrow

theorem glyphs_of_blank {row : List Cell} (h : ∀ cell ∈ row, cell.face = (" ", 1)) :
    glyphs row = List.replicate row.length ' ' := by
  induction row with
  | nil => rfl
  | cons cell row ih =>
      obtain ⟨hcell, hrow⟩ := List.forall_mem_cons.mp h
      obtain ⟨hglyph, hwidth⟩ := Prod.mk.inj hcell
      have hshown : cell.isShown = true := by rw [Cell.isShown, hwidth]; rfl
      rw [glyphs_cons_of_shown hshown, ih hrow, hglyph]
      rfl

/-- A row shows some texts from a column on, and nothing between them or behind them. -/
structure RowFrom [Text.Measure] (c : Canvas) (y : Int) (row : List Cell) (column : Nat)
    (ts : List Writing) : Prop where
  order : ts.Pairwise fun a b => a.x ≤ b.x ∧ a.Apart b
  row_eq : ∀ t ∈ ts, t.y = y
  start : ∀ t ∈ ts, ∀ x, t.Covers x y → column ≤ x
  shows : ∀ t ∈ ts, c.Shows t.x y (faces t.text.toList)
  blank : ∀ (i : Nat) cell, column ≤ i → row[i]? = some cell → (∀ t ∈ ts, ¬ t.Covers i y) →
    cell.face = (" ", 1)

namespace RowFrom

variable [Text.Measure] {y : Int} {row : List Cell} {column : Nat} {t : Writing} {ts : List Writing}

/-- The first text begins right of the column, unless it is empty. -/
theorem le_first (h : RowFrom c y row column (t :: ts)) :
    0 < Text.displayWidth t.text → column ≤ t.x := by
  intro hpos
  have hrow := h.row_eq t List.mem_cons_self
  exact h.start t List.mem_cons_self t.x ⟨hrow.symm, by omega⟩

/-- What follows the first text. -/
theorem tail (h : RowFrom c y row column (t :: ts)) :
    RowFrom c y row (max column (t.x.toNat + Text.displayWidth t.text)) ts := by
  have hcolumn := h.le_first
  obtain ⟨hfirst, horder⟩ := List.pairwise_cons.mp h.order
  obtain ⟨hrow, hrows⟩ := List.forall_mem_cons.mp h.row_eq
  refine ⟨horder, hrows, fun t' ht' x hcovers => ?_, (List.forall_mem_cons.mp h.shows).2, ?_⟩
  · obtain ⟨hle, hapart⟩ := hfirst t' ht'
    have hout : ¬ t.Covers x y := fun hin => hapart x y ⟨hin, hcovers⟩
    have hstart := h.start t' (List.mem_cons_of_mem t ht') x hcovers
    obtain ⟨-, hle', -⟩ := hcovers
    unfold Writing.Covers at hout
    omega
  · intro i cell hle hcell hout
    refine h.blank i cell (by omega) hcell (List.forall_mem_cons.mpr ⟨?_, hout⟩)
    rintro ⟨-, -, hlt⟩
    omega

/-- The cells in front of the first text show nothing. -/
theorem glyphs_gap (h : RowFrom c y row column (t :: ts)) :
    glyphs ((row.drop column).take (t.x.toNat - column)) =
      List.replicate ((row.drop column).take (t.x.toNat - column)).length ' ' := by
  refine glyphs_of_blank fun cell hcell => ?_
  obtain ⟨i, hi, hcell⟩ := List.mem_take_iff_getElem.mp hcell
  rw [List.getElem_drop] at hcell
  refine h.blank (column + i) cell (by omega) (by rw [← hcell]; exact List.getElem?_eq_getElem _) ?_
  have hfirst := (List.pairwise_cons.mp h.order).1
  refine List.forall_mem_cons.mpr ⟨?_, fun t' ht' => ?_⟩
  · rintro ⟨-, hle, -⟩
    omega
  · rintro ⟨-, hle, -⟩
    have hle' := (hfirst t' ht').1
    omega

theorem glyphs_text (h : RowFrom c y row column (t :: ts))
    (hrow : ∀ x : Nat, c.cell? x y = row[x]?) :
    glyphs ((row.drop (column + (t.x.toNat - column))).take (Text.displayWidth t.text)) =
      t.text.toList := by
  have hcolumn := h.le_first
  refine glyphs_eq_of_map_face ?_
  rcases Nat.eq_zero_or_pos (Text.displayWidth t.text) with hzero | hpos
  · have hnone : faces t.text.toList = [] := List.length_eq_zero_iff.mp (by rwa [length_faces])
    rw [hzero, List.take_zero, hnone, List.map_nil]
  · have hstart : column + (t.x.toNat - column) = t.x.toNat := by omega
    have hfaces := (h.shows t List.mem_cons_self).map_face hrow
    rwa [length_faces, ← hstart] at hfaces

/-- What a row shows from a column on, and what is written of its texts. -/
theorem trimEnd_glyphs_drop (h : RowFrom c y row column ts)
    (hrow : ∀ x : Nat, c.cell? x y = row[x]?) :
    Text.trimEnd (glyphs (row.drop column)) = Text.trimEnd (lineFrom column ts) := by
  induction ts generalizing column with
  | nil =>
      have hblank : ∀ cell ∈ row.drop column, cell.face = (" ", 1) := by
        intro cell hcell
        obtain ⟨i, hi⟩ := List.mem_iff_getElem?.mp hcell
        rw [List.getElem?_drop] at hi
        exact h.blank (column + i) cell (Nat.le_add_right _ _) hi nofun
      rw [glyphs_of_blank hblank, Text.trimEnd_replicate]
      rfl
  | cons t ts ih =>
      have hcolumn := h.le_first
      have hrest := ih h.tail
      have hgap := h.glyphs_gap
      have htext := h.glyphs_text hrow
      have hnext : max column (t.x.toNat + Text.displayWidth t.text) =
          column + (t.x.toNat - column) + Text.displayWidth t.text := by
        omega
      rw [hnext] at hrest
      rw [lineFrom, hnext]
      generalize t.x.toNat - column = gap at *
      have hsplit : row.drop column = (row.drop column).take gap ++
          (row.drop (column + gap)).take (Text.displayWidth t.text) ++
            row.drop (column + gap + Text.displayWidth t.text) := by
        rw [List.append_assoc, ← List.drop_drop, ← List.drop_drop, ← List.drop_drop,
          List.take_append_drop, List.take_append_drop]
      rw [hsplit, glyphs_append, glyphs_append, hgap, htext, Text.trimEnd_append_congr hrest]
      rcases Nat.lt_or_ge row.length (column + gap) with hshort | hlong
      -- An empty text may stand behind the end of the row; so do all texts after it.
      · have hnone : row.drop (column + gap) = [] := List.drop_of_length_le (Nat.le_of_lt hshort)
        rw [← List.drop_drop, hnone, List.drop_nil] at hrest
        rw [hnone, List.take_nil] at htext
        rw [← htext, ← Text.trimEnd_append_congr hrest, ← Text.trimEnd_append_congr hrest]
        simp only [glyphs, List.filter_nil, List.flatMap_nil, List.append_nil,
          Text.trimEnd_replicate]
      · rw [List.length_take, List.length_drop, Nat.min_eq_left (by omega)]

end RowFrom

/-! ### Pictures -/

theorem Typeset.rowFrom [Text.Measure] {width height : Int} (h : Typeset ws (empty width height) c)
    (hin : ∀ w ∈ ws, w.Within (empty width height)) (hapart : ws.Pairwise Writing.Apart) {y : Int}
    {row : List Cell}
    (hrow : ∀ x : Nat, c.cell? x y = row[x]?) : RowFrom c y row 0 (rowTexts ws y) where
  order := pairwise_rowTexts hapart y
  row_eq t ht := (mem_rowTexts.mp ht).2
  start t ht x hcovers := (hin t (mem_rowTexts.mp ht).1 x y hcovers).2.2.1
  shows t ht := by
    obtain ⟨hmem, rfl⟩ := mem_rowTexts.mp ht
    exact h.shows t hmem
  blank i cell _ hcell hout := by
    have hsame := h.same i y fun w hw hcovers =>
      hout w (mem_rowTexts.mpr ⟨hw, hcovers.1.symm⟩) hcovers
    rw [face?, hrow, hcell] at hsame
    obtain ⟨cell₀, hcell₀, hface⟩ := Option.map_eq_some_iff.mp hsame.symm
    rw [← hface, eq_blank_of_empty hcell₀]
    rfl

theorem Typeset.picture_eq [Text.Measure] {width height : Int}
    (h : Typeset ws (empty width height) c) (hin : ∀ w ∈ ws, w.Within (empty width height))
    (hapart : ws.Pairwise Writing.Apart) :
    c.picture false = joinLines (dropEmptyLines ((List.range height.toNat).map fun (y : Nat) =>
      Text.trimEnd (lineFrom 0 (rowTexts ws y)))) := by
  have hlines : c.cells.map plainLine = (List.range height.toNat).map fun (y : Nat) =>
      Text.trimEnd (lineFrom 0 (rowTexts ws y)) := by
    refine List.ext_getElem? fun y => ?_
    have hlength : c.cells.length = height.toNat := by
      rw [cells, List.length_map, Vector.length_toList, h.height]
      rfl
    rw [List.getElem?_map, List.getElem?_map]
    rcases Nat.lt_or_ge y c.cells.length with hlt | hge
    · have hrow : ∀ x : Nat, c.cell? x y = c.cells[y][x]? := by
        intro x
        rw [cell?_natCast, List.getElem?_eq_getElem hlt]
        rfl
      have hline := (h.rowFrom hin hapart hrow).trimEnd_glyphs_drop hrow
      rw [List.getElem?_eq_getElem hlt, List.getElem?_range (hlength ▸ hlt)]
      exact congrArg some hline
    · rw [List.getElem?_eq_none hge, List.getElem?_eq_none (by rw [List.length_range]; omega)]
      rfl
  rw [picture, if_neg (by decide), hlines]

/-- **Texts side by side show as they are.**  Texts whose cells lie on an empty canvas and of which
no two have a cell in common are written, in whatever order, and leave the same canvas; each write
ends in the column after its text.  The picture has a line for every row, without blanks at its end
and without empty lines at the end: the texts of the row from left to right, each behind as many
blanks as there are free columns in front of it. -/
theorem picture_of_writeAll [Text.Measure] {width height : Int} {ws : List Writing}
    (hin : ∀ w ∈ ws, w.Within (empty width height)) (hapart : ws.Pairwise Writing.Apart) :
    ∃ c, (∀ ws' : List Writing, ws'.Perm ws → (writeAll ws').run (empty width height) =
        .ok (ws'.map fun w => w.x + Text.displayWidth w.text) c) ∧
      c.picture false = joinLines (dropEmptyLines ((List.range height.toNat).map fun (y : Nat) =>
        Text.trimEnd (lineFrom 0 (rowTexts ws y)))) := by
  obtain ⟨c, -, htypeset⟩ := exists_run_writeAll hin hapart
  refine ⟨c, fun ws' hperm => ?_, htypeset.picture_eq hin hapart⟩
  have hin' : ∀ w ∈ ws', w.Within (empty width height) :=
    fun w hw => hin w (hperm.mem_iff.mp hw)
  obtain ⟨c', hrun, htypeset'⟩ :=
    exists_run_writeAll hin' ((hperm.pairwise_iff Writing.Apart.symm).mpr hapart)
  rw [hrun, htypeset.unique (htypeset'.of_perm hperm.symm)]

/-- Texts in two rows, from right to left: a wide one, and an empty one within another. -/
def scattered : List Writing :=
  [⟨7, 2, "b"⟩, ⟨5, 0, "本"⟩, ⟨1, 2, "日x"⟩, ⟨2, 2, ""⟩, ⟨0, 0, "a "⟩]

theorem picture_of_writeAll_scattered :
    ∃ c, (writeAll scattered).run (empty 8 4) = .ok [8, 7, 4, 2, 2] c ∧
      (writeAll scattered.reverse).run (empty 8 4) = .ok [2, 2, 4, 7, 8] c ∧
      c.picture false = "a    本\n\n 日x   b" := by
  have hin : ∀ w ∈ scattered, w.Within (empty 8 4) := by decide +kernel
  have hapart : scattered.Pairwise Writing.Apart := by decide +kernel
  obtain ⟨c, hrun, hpicture⟩ := picture_of_writeAll hin hapart
  refine ⟨c, hrun scattered (.refl _), hrun scattered.reverse (List.reverse_perm _), ?_⟩
  rw [hpicture]
  decide +kernel

end Flowchart.Canvas
