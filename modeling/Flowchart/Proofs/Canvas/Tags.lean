import Flowchart.Proofs.Canvas.Preview

/-! # Tags of a preview

A tag opens a style, or it closes the one that was opened last.  The tags of a row are balanced when
every closing tag closes a style and none stays open (`Balanced`).  Glyphs leave the tags of all
cells as they are, and a style is attached with its opening tag in front of the closing one, which
keeps a row balanced (`Balanced.insert`).  So the tags on the cells of every row of a sketch are
balanced (`Sketch.invariant_balanced`).

What is written of a row are the tags on the cells that are shown (`tags_segments`).  A row is
therefore written with balanced tags if none of its tags is on a covered cell, in particular if all
characters of the labels are narrow (`balanced_tags_of_preview`).  A label that ends with a wide
character has its closing tag on a cell that this character covers, and its style stays open
(`not_balanced_tags_of_preview`). -/

namespace Flowchart

/-! ### Balanced tags -/

/-- The number of open styles after one more tag; nothing is left to close when none is open. -/
def readTag (depth : Nat) (tag : String) : Option Nat :=
  if tag = closingTag then (if depth = 0 then none else some (depth - 1)) else some (depth + 1)

/-- Every closing tag closes a style that is open, and no style stays open. -/
def Balanced (tags : List String) : Prop := tags.foldlM readTag 0 = some 0

instance (tags : List String) : Decidable (Balanced tags) := inferInstanceAs (Decidable (_ = _))

theorem readTag_succ {depth depth' : Nat} {tag : String} (h : readTag depth tag = some depth') :
    readTag (depth + 1) tag = some (depth' + 1) := by
  unfold readTag at h ⊢
  grind

/-- A style around some tags stays open while they are read. -/
theorem foldlM_readTag_succ {tags : List String} {depth depth' : Nat}
    (h : tags.foldlM readTag depth = some depth') :
    tags.foldlM readTag (depth + 1) = some (depth' + 1) := by
  induction tags generalizing depth with
  | nil =>
      obtain rfl := Option.some.inj h
      rfl
  | cons tag tags ih =>
      rw [List.foldlM_cons] at h ⊢
      obtain ⟨next, hnext, h⟩ := Option.bind_eq_some_iff.mp h
      rw [readTag_succ hnext]
      exact ih h

/-- A style may be put around a part of balanced tags. -/
theorem Balanced.insert {front middle back : List String} (h : Balanced (front ++ (middle ++ back)))
    {tag : String} (htag : tag ≠ closingTag) :
    Balanced (front ++ tag :: (middle ++ closingTag :: back)) := by
  unfold Balanced at h ⊢
  rw [List.foldlM_append] at h ⊢
  obtain ⟨depth, hfront, h⟩ := Option.bind_eq_some_iff.mp h
  rw [List.foldlM_append] at h
  obtain ⟨depth', hmiddle, hback⟩ := Option.bind_eq_some_iff.mp h
  have hopen : readTag depth tag = some (depth + 1) := if_neg htag
  have hclose : readTag (depth' + 1) closingTag = some depth' := by
    rw [readTag, if_pos rfl, if_neg (Nat.succ_ne_zero _), Nat.add_sub_cancel]
  rw [hfront, Option.bind_eq_bind, Option.bind_some, List.foldlM_cons, hopen, Option.bind_eq_bind,
    Option.bind_some, List.foldlM_append, foldlM_readTag_succ hmiddle, Option.bind_eq_bind,
    Option.bind_some, List.foldlM_cons, hclose, Option.bind_eq_bind, Option.bind_some, hback]

/-! ### The tags of a row -/

/-- The tags of a cell in the order in which they are written. -/
def Cell.tags (c : Cell) : List String := c.opening ++ c.closing

def Segment.tag? : Segment → Option String
  | run _ => none
  | tag markup => some markup

theorem Cell.filterMap_tag?_segments (c : Cell) : c.segments.filterMap Segment.tag? = c.tags := by
  have htags : ∀ tags : List String, (tags.map Segment.tag).filterMap Segment.tag? = tags := by
    intro tags
    rw [List.filterMap_map]
    exact List.filterMap_some
  rw [segments, List.filterMap_append, List.filterMap_append, htags, htags]
  simp [Segment.tag?, tags]

theorem Cell.tags_of_not_isMarked {c : Cell} (h : ¬ c.isMarked = true) : c.tags = [] := by
  simpa [isMarked, tags] using h

theorem filterMap_tag?_segmentsFrom (row : List Cell) (run : List Char) :
    (segmentsFrom run row).filterMap Segment.tag? =
      (row.filter Cell.isShown).flatMap Cell.tags := by
  induction row generalizing run with
  | nil => rfl
  | cons cell row ih =>
      unfold segmentsFrom
      split
      · next hshown => rw [ih, List.filter_cons_of_neg (by simpa using hshown)]
      · next hshown =>
          rw [List.filter_cons_of_pos (by simpa using hshown), List.flatMap_cons]
          split
          · rw [List.cons_append, List.filterMap_cons_none rfl, List.filterMap_append,
              cell.filterMap_tag?_segments, ih]
          · next hmarked => rw [ih, Cell.tags_of_not_isMarked hmarked, List.nil_append]

/-- The tags that are written of a row are those of the cells that are shown. -/
theorem tags_segments (row : List Cell) : (segments row).filterMap Segment.tag? =
    (row.filter Cell.isShown).flatMap Cell.tags :=
  filterMap_tag?_segmentsFrom row []

theorem flatMap_tags_filter_isShown {row : List Cell}
    (h : ∀ cell ∈ row, cell.isMarked = true → cell.isShown = true) :
    (row.filter Cell.isShown).flatMap Cell.tags = row.flatMap Cell.tags := by
  induction row with
  | nil => rfl
  | cons cell row ih =>
      obtain ⟨hcell, hrow⟩ := List.forall_mem_cons.mp h
      rw [List.flatMap_cons]
      by_cases hshown : cell.isShown = true
      · rw [List.filter_cons_of_pos hshown, List.flatMap_cons, ih hrow]
      · have hmarked : ¬ cell.isMarked = true := fun hmarked => hshown (hcell hmarked)
        rw [List.filter_cons_of_neg hshown, ih hrow, Cell.tags_of_not_isMarked hmarked,
          List.nil_append]

theorem flatMap_tags_modify {f : Cell → Cell} (hf : ∀ cell, (f cell).tags = cell.tags)
    (row : List Cell) (i : Nat) : (row.modify i f).flatMap Cell.tags = row.flatMap Cell.tags := by
  induction row generalizing i with
  | nil => rw [List.modify_nil]
  | cons cell row ih =>
      cases i with
      | zero => rw [List.modify_zero_cons, List.flatMap_cons, List.flatMap_cons, hf]
      | succ i => rw [List.modify_succ_cons, List.flatMap_cons, List.flatMap_cons, ih]

theorem exists_flatMap_tags_after {row : List Cell} {i : Nat} (hi : i < row.length) (tag : String) :
    ∃ front back, row.flatMap Cell.tags = front ++ back ∧
      (row.modify i (Cell.tagging tag .after)).flatMap Cell.tags = front ++ tag :: back := by
  induction row generalizing i with
  | nil => cases hi
  | cons cell row ih =>
      cases i with
      | zero =>
          refine ⟨cell.tags, row.flatMap Cell.tags, List.flatMap_cons .., ?_⟩
          rw [List.modify_zero_cons, List.flatMap_cons]
          simp [Cell.tags, Cell.tagging]
      | succ i =>
          obtain ⟨front, back, hrow, hmodify⟩ := ih (Nat.lt_of_succ_lt_succ hi)
          refine ⟨cell.tags ++ front, back, ?_, ?_⟩
          · rw [List.flatMap_cons, hrow, List.append_assoc]
          · rw [List.modify_succ_cons, List.flatMap_cons, hmodify, List.append_assoc]

/-- A tag in front of a cell, and a tag behind the same cell or one right of it. -/
theorem exists_flatMap_tags_around {row : List Cell} {i j : Nat} (hij : i ≤ j) (hj : j < row.length)
    (tag tag' : String) : ∃ front middle back,
      row.flatMap Cell.tags = front ++ (middle ++ back) ∧
      ((row.modify i (Cell.tagging tag .before)).modify j (Cell.tagging tag' .after)).flatMap
        Cell.tags = front ++ tag :: (middle ++ tag' :: back) := by
  -- Both tags may go to one cell: there the one that opens still comes first.
  induction row generalizing i j with
  | nil => cases hj
  | cons cell row ih =>
      rcases i with _ | i
      · refine ⟨cell.opening, ?_⟩
        rcases j with _ | j
        · refine ⟨cell.closing, row.flatMap Cell.tags, by simp [Cell.tags], ?_⟩
          rw [List.modify_zero_cons, List.modify_zero_cons, List.flatMap_cons]
          simp [Cell.tags, Cell.tagging]
        · obtain ⟨front, back, hrow, hmodify⟩ :=
            exists_flatMap_tags_after (Nat.lt_of_succ_lt_succ hj) tag'
          refine ⟨cell.closing ++ front, back, by simp [Cell.tags, hrow], ?_⟩
          rw [List.modify_zero_cons, List.modify_succ_cons, List.flatMap_cons, hmodify]
          simp [Cell.tags, Cell.tagging]
      · obtain ⟨j, rfl⟩ := Nat.exists_eq_succ_of_ne_zero (show j ≠ 0 by omega)
        obtain ⟨front, middle, back, hrow, hmodify⟩ :=
          ih (Nat.le_of_succ_le_succ hij) (Nat.lt_of_succ_lt_succ hj)
        refine ⟨cell.tags ++ front, middle, back, ?_, ?_⟩
        · rw [List.flatMap_cons, hrow, List.append_assoc]
        · rw [List.modify_succ_cons, List.modify_succ_cons, List.flatMap_cons, hmodify,
            List.append_assoc]

/-! ### Balanced canvases -/

namespace Canvas

variable {c : Canvas} {x y : Int} {tag : String}

theorem toList_modifyAt {α : Type} {n : Nat} (v : Vector α n) (i : Nat) (f : α → α) :
    (modifyAt v i f).toList = v.toList.modify i f := by
  rw [modifyAt, Vector.toList_mk, Array.toList_modify]
  rfl

theorem cells_update (hin : c.Inside x y) (f : Cell → Cell) :
    (c.update x y f).cells = c.cells.modify y.toNat fun row => row.modify x.toNat f := by
  rw [update, if_pos hin, cells, toList_modifyAt, cells]
  refine List.ext_getElem? fun i => ?_
  simp only [List.getElem?_map, List.getElem?_modify]
  cases hrow : c.rows.toList[i]? with
  | none => split <;> rfl
  | some row =>
      split
      · exact congrArg some (toList_modifyAt row x.toNat f)
      · rfl

theorem length_of_mem_cells {row : List Cell} (hrow : row ∈ c.cells) :
    row.length = c.width.toNat := by
  obtain ⟨v, -, rfl⟩ := List.mem_map.mp hrow
  exact Vector.length_toList

/-- The tags on the cells of every row are balanced. -/
def BalancedRows (c : Canvas) : Prop := ∀ row ∈ c.cells, Balanced (row.flatMap Cell.tags)

theorem balancedRows_empty (width height : Int) : (empty width height).BalancedRows := by
  intro row hrow
  obtain ⟨y, hcell⟩ := exists_of_mem_cells hrow
  have hbare : row.flatMap Cell.tags = [] := by
    rw [List.flatMap_eq_nil_iff]
    intro cell hmem
    obtain ⟨x, hx⟩ := List.mem_iff_getElem?.mp hmem
    rw [eq_blank_of_empty ((hcell x).trans hx)]
    rfl
  rw [hbare]
  rfl

/-- A row after a change is an old one, or it is the one that was changed. -/
theorem mem_or_exists_of_mem_modify {rows : List (List Cell)} {i : Nat} {f : List Cell → List Cell}
    {row : List Cell} (h : row ∈ rows.modify i f) : row ∈ rows ∨ ∃ old ∈ rows, row = f old := by
  obtain ⟨j, hj⟩ := List.mem_iff_getElem?.mp h
  rw [List.getElem?_modify] at hj
  obtain ⟨old, hold, hrow⟩ := Option.map_eq_some_iff.mp hj
  have hmem := List.mem_of_getElem? hold
  split at hrow
  · exact .inr ⟨old, hmem, hrow.symm⟩
  · exact .inl (hrow ▸ hmem)

theorem BalancedRows.put (h : c.BalancedRows) (hin : c.Inside x y) (glyph : String) (width : Nat) :
    (c.update x y (Cell.holding glyph width)).BalancedRows := by
  intro row hrow
  rw [cells_update hin] at hrow
  rcases mem_or_exists_of_mem_modify hrow with hrow | ⟨old, hold, rfl⟩
  · exact h row hrow
  · rw [flatMap_tags_modify (f := Cell.holding glyph width) fun _ => rfl]
    exact h old hold

/-- A style that is opened and closed in a row keeps it balanced. -/
theorem BalancedRows.mark {x' : Int} (h : c.BalancedRows) (hle : x ≤ x') (hin : c.Inside x y)
    (hin' : c.Inside x' y) (hne : tag ≠ "") (htag : tag ≠ closingTag) :
    ((c.mark x y tag .before).mark x' y closingTag .after).BalancedRows := by
  rw [mark_eq_update c x y hne, mark_eq_update _ x' y (by decide)]
  intro row hrow
  rw [cells_update ((inside_update ..).mpr hin'), cells_update hin, List.modify_modify_eq] at hrow
  rcases mem_or_exists_of_mem_modify hrow with hrow | ⟨old, hold, rfl⟩
  · exact h row hrow
  · have hlength := length_of_mem_cells hold
    have hcolumns : x.toNat ≤ x'.toNat := Int.toNat_le_toNat hle
    have hlast : x'.toNat < old.length := by
      unfold Inside at hin'
      omega
    obtain ⟨front, middle, back, hold', hnew⟩ :=
      exists_flatMap_tags_around hcolumns hlast tag closingTag
    have hbalanced := h old hold
    rw [hold'] at hbalanced
    exact hnew ▸ hbalanced.insert htag

/-! ### Drawing -/

theorem balancedRows_drawGlyph (d : Char) (x y : Int) :
    Triple BalancedRows (drawGlyph x y d) fun _ => BalancedRows :=
  Triple.drawGlyph fun _ hc hin => hc.put hin _ _

/-- The canvas has the cells of a row from `first` up to `stop`. -/
def Spans (y first stop : Int) (c : Canvas) : Prop := ∀ x, first ≤ x → x < stop → c.Inside x y

theorem balancedRows_write [Text.Measure] (x y : Int) (text : String) :
    Triple BalancedRows (write x y text) fun stop c =>
      stop = x + Text.displayWidth text ∧ c.BalancedRows ∧ c.Spans y x stop := by
  refine (Triple.write (P := fun stop c => c.BalancedRows ∧ c.Spans y x stop)
    (G := fun _ => True) trivial ?_ (fun _ _ => trivial) x (Int.le_refl _)).of_imp ?_
  · intro x₁ glyph width _ _
    refine Triple.put fun c hc hin => ⟨hc.1.put hin _ _, fun x' hfirst hstop => ?_⟩
    rw [inside_update]
    by_cases hx : x' = x₁
    · exact hx ▸ hin
    · exact hc.2 x' hfirst (by omega)
  · exact fun c hc => ⟨hc, fun x' hfirst hstop => by omega⟩

/-- The style of a label is attached to its first and its last column. -/
theorem balancedRows_drawLabelled [Text.Measure] (g : BoxGlyphs) {b : Box} (hroomy : b.Roomy)
    (text : String) (hne : tag ≠ "") (htag : tag ≠ closingTag) :
    Triple BalancedRows (drawLabelled g b text tag) fun _ => BalancedRows := by
  have hbox := triple_drawBox (g := g) hroomy fun d _ x y _ => balancedRows_drawGlyph d x y
  unfold drawLabelled
  refine hbox.bind fun _ => (balancedRows_write _ _ _).bind fun stop => ?_
  split
  · next hlabel =>
      have hwidth := Text.one_le_displayWidth hlabel
      refine Triple.of_modify ?_
      rintro c ⟨rfl, hc, hspans⟩
      exact hc.mark (by omega) (hspans _ (by omega) (by omega)) (hspans _ (by omega) (by omega))
        hne htag
  · exact (Triple.pure (Q := fun _ => BalancedRows) ()).of_imp fun c hc => hc.2.1

theorem balancedRows_drawTrail (d : Char) (cells : List Place) :
    Triple BalancedRows (drawTrail d cells) fun _ => BalancedRows := by
  refine Triple.forM fun p _ => ?_
  have hdraw : Triple BalancedRows (drawGlyph p.1 p.2 d) fun _ c =>
      c.BalancedRows ∧ c.Inside p.1 p.2 :=
    Triple.drawGlyph fun c hc hin => ⟨hc.put hin _ _, (inside_update ..).mpr hin⟩
  refine hdraw.bind fun _ => Triple.of_modify fun c hc => ?_
  exact hc.1.mark (Int.le_refl _) hc.2 hc.2 (by decide) (by decide)

end Canvas

theorem ElementKind.tag_ne (kind : ElementKind) : kind.tag ≠ "" ∧ kind.tag ≠ closingTag := by
  cases kind <;> decide

theorem Sketch.invariant_balanced [Text.Measure] (ascii : Bool) (shapes : List ShapeElement)
    (connectors : List ConnectorElement) :
    Invariant ascii shapes connectors Canvas.BalancedRows where
  empty := Canvas.balancedRows_empty
  shape e _ _ hroomy :=
    Canvas.balancedRows_drawLabelled _ hroomy e.text e.kind.tag_ne.1 e.kind.tag_ne.2
  trail cells := Canvas.balancedRows_drawTrail _ cells
  tip d _ x y := Canvas.balancedRows_drawGlyph d x y
  label _ _ _ _ x y :=
    ((Canvas.balancedRows_write x y _).mono fun _ _ hc => hc.2.1).of_imp fun _ hc => hc.1

/-! ### Narrow labels -/

namespace Canvas

/-- No cell is covered by the glyph of another one. -/
def Narrow (c : Canvas) : Prop := ∀ x y cell, c.cell? x y = some cell → cell.width = 1

variable {c : Canvas}

theorem narrow_empty (width height : Int) : (empty width height).Narrow := by
  intro x y cell hcell
  rw [eq_blank_of_empty hcell]
  rfl

theorem Narrow.put (h : c.Narrow) (x y : Int) (glyph : String) :
    (c.update x y (Cell.holding glyph 1)).Narrow := by
  intro x₁ y₁ cell hcell
  rw [cell?_update] at hcell
  split at hcell
  · obtain ⟨old, -, rfl⟩ := Option.map_eq_some_iff.mp hcell
    rfl
  · exact h x₁ y₁ cell hcell

theorem Narrow.mark (h : c.Narrow) (x y : Int) (tag : String) (side : Side) :
    (c.mark x y tag side).Narrow := by
  by_cases htag : tag = ""
  · rwa [Canvas.mark, if_pos htag]
  · intro x₁ y₁ cell hcell
    rw [mark_eq_update c x y htag, cell?_update] at hcell
    split at hcell
    · obtain ⟨old, hold, rfl⟩ := Option.map_eq_some_iff.mp hcell
      have hwidth : (old.tagging tag side).width = old.width := by cases side <;> rfl
      rw [hwidth]
      exact h x₁ y₁ old hold
    · exact h x₁ y₁ cell hcell

theorem narrow_drawGlyph (d : Char) (x y : Int) :
    Triple Narrow (drawGlyph x y d) fun _ => Narrow :=
  Triple.drawGlyph fun _ hc _ => hc.put x y _

theorem narrow_writeChars [Text.Measure] {chars : List Char}
    (hchars : ∀ d ∈ chars, Text.charWidth d = 1)
    (x y : Int) : Triple Narrow (writeChars y chars x) fun _ => Narrow := by
  induction chars generalizing x with
  | nil => exact Triple.pure (Q := fun _ => Narrow) x
  | cons d chars ih =>
      obtain ⟨hd, hchars⟩ := List.forall_mem_cons.mp hchars
      rw [writeChars, hd]
      exact (narrow_drawGlyph d x y).bind fun _ => ih hchars _

theorem narrow_drawLabelled [Text.Measure] (g : BoxGlyphs) {b : Box} (hroomy : b.Roomy)
    {text : String} (htext : ∀ d ∈ text.toList, Text.charWidth d = 1) (tag : String) :
    Triple Narrow (drawLabelled g b text tag) fun _ => Narrow :=
  triple_drawLabelled (fun _ x y tag side hc => hc.mark x y tag side) hroomy
    (fun d _ x y _ => narrow_drawGlyph d x y)
    (narrow_writeChars (Text.charWidth_fitText htext) _ _) tag

theorem narrow_drawTrail (d : Char) (cells : List Place) :
    Triple Narrow (drawTrail d cells) fun _ => Narrow :=
  triple_drawTrail (fun _ x y tag side hc => hc.mark x y tag side)
    fun p _ => narrow_drawGlyph d p.1 p.2

end Canvas

theorem Sketch.invariant_narrow [Text.Measure] {ascii : Bool} {shapes : List ShapeElement}
    {connectors : List ConnectorElement}
    (hshapes : ∀ e ∈ shapes, ∀ d ∈ e.text.toList, Text.charWidth d = 1)
    (hconnectors : ∀ e ∈ connectors, ∀ text, e.text = some text →
      ∀ d ∈ text.toList, Text.charWidth d = 1) :
    Invariant ascii shapes connectors Canvas.Narrow where
  empty := Canvas.narrow_empty
  shape e he _ hroomy := Canvas.narrow_drawLabelled _ hroomy (hshapes e he) _
  trail cells := Canvas.narrow_drawTrail _ cells
  tip d _ x y := Canvas.narrow_drawGlyph d x y
  label e he text htext x y :=
    (Canvas.narrow_writeChars (Text.charWidth_fitText (hconnectors e he text htext)) x y).of_imp
      fun _ hc => hc.1

theorem narrow_of_canvasOf [Text.Measure] {elements : List Element} {style : String} {c : Canvas}
    (hdrawn : canvasOf elements style = .ok c)
    (htexts : ∀ e ∈ elements, ∀ d ∈ e.text.toList, Text.charWidth d = 1) : c.Narrow := by
  refine (Sketch.invariant_narrow ?_ ?_).of_canvasOf hdrawn
  · exact fun e he => htexts _ (Element.mem_filterMap_shape?.mp he)
  · intro e he text htext
    have hnarrow := htexts _ (Element.mem_filterMap_connector?.mp he)
    rwa [Element.text, htext] at hnarrow

/-! ### Previews -/

/-- A row whose tags are all on cells that are shown is written with balanced tags. -/
theorem balanced_tags_segments [Text.Measure] {elements : List Element} {style : String}
    {c : Canvas} (hdrawn : canvasOf elements style = .ok c) {row : List Cell} (hrow : row ∈ c.cells)
    (hshown : ∀ cell ∈ row, cell.isMarked = true → cell.isShown = true) :
    Balanced ((segments row).filterMap Segment.tag?) := by
  have hbalanced : c.BalancedRows := (Sketch.invariant_balanced _ _ _).of_canvasOf hdrawn
  rw [tags_segments, flatMap_tags_filter_isShown hshown]
  exact hbalanced row hrow

/-- The marked picture of some elements, row by row. -/
theorem toList_picture_of_canvasOf [Text.Measure] {elements : List Element} {style : String}
    {c : Canvas}
    (hdrawn : canvasOf elements style = .ok c) : (c.picture true).toList =
      ['\n'].intercalate ((shownRows c.cells).map fun row =>
        (segments row).flatMap Segment.text) := by
  have hsound := sound_of_canvasOf hdrawn
  have hbacked : ∀ row ∈ c.cells, Backed row := fun row hrow => hsound.backed_of_mem_cells hrow
  have htagged : ∀ row ∈ c.cells, Tagged row := fun row hrow => hsound.tagged_of_mem_cells hrow
  rw [Canvas.picture, if_pos rfl, toList_joinLines, dropEmptyLines_map fun row hrow =>
    markedLine_eq_nil_iff (hbacked row hrow) (htagged row hrow)]
  refine congrArg _ (List.map_congr_left fun row hrow => ?_)
  have hmem := mem_of_mem_shownRows hrow
  exact markedLine_eq (hbacked row hmem) (htagged row hmem)

/-- **Tags that are shown are balanced.**  A marked preview is written row by row, and the tags of a
row are those of the cells that are shown.  On the cells of a row the tags are balanced, however the
shapes overlap; they are written so in every row in which no covered cell has a tag, and so in every
row if all labels are narrow. -/
theorem balanced_tags_of_preview [Text.Measure] {elements : List Element} {style : String}
    {c : Canvas} (hdrawn : canvasOf elements style = .ok c) :
    ∃ text, preview elements style true = .ok text ∧
      text.toList = ['\n'].intercalate ((shownRows c.cells).map fun row =>
        (segments row).flatMap Segment.text) ∧
      (∀ row ∈ c.cells, Balanced (row.flatMap Cell.tags) ∧
        (segments row).filterMap Segment.tag? = (row.filter Cell.isShown).flatMap Cell.tags ∧
        ((∀ cell ∈ row, cell.isMarked = true → cell.isShown = true) →
          Balanced ((segments row).filterMap Segment.tag?))) ∧
      ((∀ e ∈ elements, ∀ d ∈ e.text.toList, Text.charWidth d = 1) →
        ∀ row ∈ c.cells, Balanced ((segments row).filterMap Segment.tag?)) := by
  have hpreview : preview elements style true = .ok (c.picture true) := by
    rw [preview_eq, hdrawn]
    rfl
  refine ⟨_, hpreview, toList_picture_of_canvasOf hdrawn, fun row hrow => ?_,
    fun htexts row hrow => ?_⟩
  · have hbalanced : c.BalancedRows := (Sketch.invariant_balanced _ _ _).of_canvasOf hdrawn
    exact ⟨hbalanced row hrow, tags_segments row, balanced_tags_segments hdrawn hrow⟩
  · refine balanced_tags_segments hdrawn hrow fun cell hcell _ => ?_
    obtain ⟨y, hcells⟩ := Canvas.exists_of_mem_cells hrow
    obtain ⟨x, hx⟩ := List.mem_iff_getElem?.mp hcell
    have hwidth := narrow_of_canvasOf hdrawn htexts _ _ cell ((hcells x).trans hx)
    simp [Cell.isShown, hwidth]

/-- Boxes that lie over each other, and a connector. -/
def heap : List Element :=
  [plainShape "a" .rectangle 0 0 "bottom", plainShape "b" .diamond 40 0 "middle",
   plainShape "c" .ellipse 20 20 "a label that is cut",
   plainShape "d" .rectangle 0 160 "[/]",
   .connector { id := "arrow-c-d", start := ⟨60, 50⟩, stop := ⟨60, 190⟩, text := some "then",
                style := .ofConnector, startArrowhead := none, endArrowhead := some "arrow",
                seed := 0, nonce := 0 }]

theorem balanced_tags_of_preview_heap :
    (∀ e ∈ heap, ∀ d ∈ e.text.toList, Text.charWidth d = 1) ∧
    ∃ c text, canvasOf heap "unicode" = .ok c ∧ preview heap "unicode" true = .ok text ∧
      ∀ row ∈ c.cells, Balanced ((segments row).filterMap Segment.tag?) := by
  have hall : (heap.all fun e => e.text.toList.all fun d => Text.charWidth d == 1) = true := by
    decide +kernel
  have hnarrow : ∀ e ∈ heap, ∀ d ∈ e.text.toList, Text.charWidth d = 1 := fun e he d hd =>
    eq_of_beq (List.all_eq_true.mp (List.all_eq_true.mp hall e he) d hd)
  have hdrawn : (fun _ => ()) <$> canvasOf heap "unicode" = .ok () := by decide +kernel
  obtain ⟨c, hc, -⟩ := exists_of_map_eq_ok hdrawn
  obtain ⟨text, htext, -, -, hbalanced⟩ := balanced_tags_of_preview hc
  exact ⟨hnarrow, c, text, hc, htext, hbalanced hnarrow⟩

/-- A label that ends with a wide character: the style that it opens is not closed. -/
theorem not_balanced_tags_of_preview :
    preview [plainShape "A" .rectangle 0 0 "日本"] "unicode" true =
      .ok "\n ┌──────────┐\n │   [bold cyan]日本   │\n └──────────┘" ∧
    ∃ c, canvasOf [plainShape "A" .rectangle 0 0 "日本"] "unicode" = .ok c ∧
      ∃ row ∈ shownRows c.cells, ¬ Balanced ((segments row).filterMap Segment.tag?) := by
  have hdrawn : (fun c : Canvas => decide (∃ row ∈ shownRows c.cells,
      ¬ Balanced ((segments row).filterMap Segment.tag?))) <$>
      canvasOf [plainShape "A" .rectangle 0 0 "日本"] "unicode" = .ok true := by
    decide +kernel
  obtain ⟨c, hc, hrow⟩ := exists_of_map_eq_ok hdrawn
  exact ⟨by decide +kernel, c, hc, of_decide_eq_true hrow⟩

end Flowchart
