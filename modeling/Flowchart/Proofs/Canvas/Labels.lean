import Flowchart.Proofs.Canvas.Retained

/-! # Labels of shapes

A shape displays its label when its box is drawn (`displays_drawLabelled`).  What is drawn later
leaves the label alone: a box that is apart from it by `sameOn_drawLabelled`, and a connector
because it leaves all boxes alone (`Sketch.retains_of_addConnector`).  Hence all boxes of a sketch
display their labels if no two of them have a cell in common (`Sketch.labels_of_sketchOf`).

A label that is displayed is part of a line of the picture: the edge of the box stands right of it,
so the line is not trimmed there, and it is not one of the empty lines at the end
(`Canvas.Displays.labelIn`). -/

namespace Flowchart

namespace Canvas

variable [Text.Measure] {c c₀ : Canvas} {b : Box} {text tag : String}

/-- The text of a box stands in its middle row, left of ink. -/
structure Displays (c : Canvas) (b : Box) (text : String) : Prop where
  label : c.Shows (b.labelColumn (Text.fitText text b.innerWidth)) b.middle
    (faces (Text.fitText text b.innerWidth).toList)
  ink : c.InkAt b.right b.middle

theorem Displays.of_sameOn (h : c₀.Displays b text) (hb : b.Roomy)
    (hsame : ∀ x y, b.contains (x, y) = true → c.face? x y = c₀.face? x y) : c.Displays b text := by
  obtain ⟨hfirst, hlast, habove, hbelow⟩ := hb.label_inside text
  have hwide := hb.wide
  have harea : SameOn (fun p => b.contains p = true) c₀ c := hsame
  refine ⟨h.label.of_sameOn harea fun x' hle hlt => ?_,
    h.ink.of_face?_eq (hsame _ _ ?_)⟩
  · rw [length_faces] at hlt
    unfold Text.displayWidth at hlast
    rw [Box.contains_iff]
    omega
  · rw [Box.contains_iff]
    omega

theorem displays_drawLabelled {g : BoxGlyphs} (hg : g.Inked) (hb : b.Roomy) (text tag : String) :
    Triple Sound (drawLabelled g b text tag) fun _ c => c.Displays b text := by
  obtain ⟨-, hcolumn, hrow⟩ := hb.label_inside text
  have hwrite := ((walled_write (y := b.middle) _ hcolumn).and (shows_write _ _ _)).of_imp
    fun c hc => ⟨hc, trivial⟩
  unfold drawLabelled
  -- The edge is ink before the text is written, and the text does not reach it.
  refine (walled_drawBox hg hrow).bind fun _ => hwrite.bind fun stop => ?_
  split
  · refine Triple.of_modify ?_
    rintro c ⟨⟨-, hwalled⟩, hshows⟩
    exact ⟨(hshows.mark _ _ _ _).mark _ _ _ _,
      ((hwalled.ink _ List.mem_cons_self).mark _ _ _ _).mark _ _ _ _⟩
  · refine (Triple.pure (Q := fun _ c => c.Displays b text) ()).of_imp ?_
    rintro c ⟨⟨-, hwalled⟩, hshows⟩
    exact ⟨hshows, hwalled.ink _ List.mem_cons_self⟩

end Canvas

/-! ### Sketches -/

namespace Sketch

open Canvas (Triple SameOn)

variable [Text.Measure] {s s' : Sketch} {ascii : Bool} {o : Origin} {b : Box} {e : ShapeElement}
  {drawn shapes : List ShapeElement} {boxes : List Box}

/-- The boxes of a sketch are those of some shapes, and each displays the text of its shape. -/
structure Labels (s : Sketch) (drawn : List ShapeElement) : Prop where
  sound : s.canvas.Sound
  displays : List.Forall₂ (fun e b => b.Roomy ∧ s.canvas.Displays b e.text) drawn s.boxes

theorem Labels.displays_of_sameOn (h : s.Labels drawn) {c : Canvas}
    (hsame : SameOn s.Boxed s.canvas c) :
    List.Forall₂ (fun e b => b.Roomy ∧ c.Displays b e.text) drawn s.boxes := by
  have hboxes := (List.forall₂_and_left _ _).mpr ⟨fun b hb => hb, h.displays.flip⟩
  refine (hboxes.imp fun b e hbox => ?_).flip
  obtain ⟨hmem, hroomy, hdisplays⟩ := hbox
  exact ⟨hroomy, hdisplays.of_sameOn hroomy fun x y hin => hsame x y ⟨b, hmem, hin⟩⟩

/-- A shape whose box has no cell in common with those before it is drawn with its label, and the
labels before it stay. -/
theorem Labels.of_addShape (h : s.Labels drawn) (hbox : e.box o = .ok b)
    (hdisjoint : ∀ b' ∈ s.boxes, b'.Disjoint b) (hadd : s.addShape ascii o e = .ok s') :
    s'.Labels (drawn ++ [e]) ∧ s'.boxes = s.boxes ++ [b] := by
  have hroomy := ShapeElement.roomy_of_box hbox
  have hinked := e.inked_glyphs ascii
  obtain ⟨b', next, hbox', hnext, rfl⟩ := exists_of_addShape hadd
  obtain rfl := Except.ok.inj (hbox.symm.trans hbox')
  have hboxes : next.boxes ++ [b] = s.boxes ++ [b] := by rw [boxes_of_perform hnext]
  have hsound : next.canvas.Sound :=
    of_perform (Canvas.sound_drawLabelled hinked hroomy e.text (isTag_tag e.kind)) h.sound hnext
  have hdisplays : next.canvas.Displays b e.text :=
    of_perform (I := fun c => c.Displays b e.text)
      (Canvas.displays_drawLabelled hinked hroomy e.text e.kind.tag) h.sound hnext
  have hout : ∀ p, b.contains p = true → ¬ s.Boxed p :=
    fun p hin ⟨b', hmem, hin'⟩ => hdisjoint b' hmem p ⟨hin', hin⟩
  have hsame : SameOn s.Boxed s.canvas next.canvas :=
    of_perform (Canvas.sameOn_drawLabelled hroomy hout _ e.text e.kind.tag) (.refl _ _) hnext
  refine ⟨⟨hsound, ?_⟩, hboxes⟩
  rw [hboxes]
  exact List.rel_append (h.displays_of_sameOn hsame) (.cons ⟨hroomy, hdisplays⟩ .nil)

/-- Shapes whose boxes have no cells in common are drawn with their labels. -/
theorem Labels.of_foldlM (hboxes : List.Forall₂ (fun e b => e.box o = .ok b) shapes boxes)
    (h : s.Labels drawn) (hdisjoint : (s.boxes ++ boxes).Pairwise Box.Disjoint)
    (hadd : shapes.foldlM (addShape ascii o) s = .ok s') :
    s'.Labels (drawn ++ shapes) ∧ s'.boxes = s.boxes ++ boxes := by
  -- Induction on the shapes to come: each step moves a shape to `drawn` and its box to `s.boxes`.
  induction hboxes generalizing s drawn with
  | nil =>
      obtain rfl := Except.ok.inj hadd
      rw [List.append_nil, List.append_nil]
      exact ⟨h, rfl⟩
  | @cons e b shapes boxes hbox _ ih =>
      rw [List.foldlM_cons] at hadd
      obtain ⟨next, hnext, hadd⟩ := exists_of_bind_eq_ok hadd
      have hapart := (List.pairwise_append.mp hdisjoint).2.2
      obtain ⟨hlabels, heq⟩ :=
        h.of_addShape hbox (fun b' hb' => hapart b' hb' b List.mem_cons_self) hnext
      rw [List.append_cons, ← heq] at hdisjoint
      rw [List.append_cons drawn, List.append_cons s.boxes, ← heq]
      exact ih hlabels hdisjoint hadd

theorem Labels.of_addConnector (h : s.Labels drawn) {c : ConnectorElement}
    (hadd : s.addConnector ascii o c = .ok s') : s'.Labels drawn ∧ s'.boxes = s.boxes := by
  have hretains := retains_of_addConnector hadd
  refine ⟨⟨?_, ?_⟩, hretains.boxes⟩
  · exact (invariant_sound ascii [] [c]).of_addConnector List.mem_cons_self h.sound hadd
  · rw [hretains.boxes]
    exact h.displays_of_sameOn hretains.sameOn_boxed

/-- In a sketch of shapes whose boxes have no cells in common, every box displays its label. -/
theorem labels_of_sketchOf {first : ShapeElement} {others : List ShapeElement}
    {connectors : List ConnectorElement}
    (hboxes : List.Forall₂ (fun e b => e.box (originOf first others) = .ok b) (first :: others)
      boxes) (hdisjoint : boxes.Pairwise Box.Disjoint)
    (h : sketchOf ascii first others connectors = .ok s) :
    s.Labels (first :: others) ∧ s.boxes = boxes := by
  obtain ⟨canvas, hcanvas, h⟩ := exists_of_bind_eq_ok h
  obtain ⟨drawn, hdrawn, h⟩ := exists_of_bind_eq_ok h
  have hsound : canvas.Sound :=
    (invariant_sound ascii [] []).of_canvasFor (eq_ok_of_mapError_eq_ok hcanvas)
  have hempty : Labels ⟨canvas, []⟩ [] := ⟨hsound, .nil⟩
  have hshapes : drawn.Labels (first :: others) ∧ drawn.boxes = boxes :=
    hempty.of_foldlM hboxes hdisjoint hdrawn
  refine of_foldlM_eq_ok (P := fun s => s.Labels (first :: others) ∧ s.boxes = boxes)
    (fun c _ s s' hs hadd => ?_) hshapes h
  obtain ⟨hlabels, heq⟩ := hs.1.of_addConnector hadd
  exact ⟨hlabels, heq.trans hs.2⟩

end Sketch

/-! ### Lines of a picture -/

/-- A text shows another one as the label of a box: fitted to the box, it is part of the line that
the middle row of the box has, and so it is itself if it fits. -/
def Box.LabelIn [Text.Measure] (b : Box) (shown text : String) : Prop :=
  ∃ n : Nat, b.middle = n ∧ ∃ line, (Text.splitLines shown.toList)[n]? = some line ∧
    (Text.fitText text b.innerWidth).toList <:+: line ∧
    (Text.displayWidth text ≤ b.innerWidth → text.toList <:+: line)

theorem getElem?_dropEmptyLines {lines : List (List Char)} {n : Nat} {line : List Char}
    (h : lines[n]? = some line) (hne : line ≠ []) : (dropEmptyLines lines)[n]? = some line := by
  have hsplit : dropEmptyLines lines ++ (lines.reverse.takeWhile List.isEmpty).reverse = lines := by
    rw [dropEmptyLines, ← List.reverse_append, List.takeWhile_append_dropWhile,
      List.reverse_reverse]
  rw [← hsplit] at h
  rcases Nat.lt_or_ge n (dropEmptyLines lines).length with hlt | hge
  · rwa [List.getElem?_append_left hlt] at h
  · rw [List.getElem?_append_right hge] at h
    have hempty := List.mem_takeWhile_imp (List.mem_reverse.mp (List.mem_of_getElem? h))
    exact absurd (List.isEmpty_iff.mp hempty) hne

theorem getLast?_dropEmptyLines (lines : List (List Char)) :
    ∀ line ∈ (dropEmptyLines lines).getLast?, line ≠ [] := by
  intro line hline
  rw [dropEmptyLines, List.getLast?_reverse, Option.mem_def] at hline
  have hhead := List.head?_dropWhile_not List.isEmpty lines.reverse
  rw [hline] at hhead
  simpa using hhead

namespace Canvas

variable {c : Canvas} {b : Box} {text : String} {row : List Cell} {x y : Int}

/-- The lines of a picture of unbroken glyphs are those of its rows. -/
theorem splitLines_picture (h : c.Holds fun d => Text.isLineBreak d = false) :
    Text.splitLines (c.picture false).toList = dropEmptyLines (c.cells.map plainLine) := by
  rw [picture, if_neg (by decide), toList_joinLines]
  refine Text.splitLines_intercalate (fun line hline => ?_) (getLast?_dropEmptyLines _)
  have hmem := (List.dropWhile_sublist _).mem (List.mem_reverse.mp hline)
  obtain ⟨row, hrow, rfl⟩ := List.mem_map.mp (List.mem_reverse.mp hmem)
  obtain ⟨y, hcell⟩ := exists_of_mem_cells hrow
  intro d hd
  obtain ⟨cell, hcell', hd⟩ := List.mem_flatMap.mp (Text.dropEndWhile_subset _ _ hd)
  obtain ⟨x, hx⟩ := List.mem_iff_getElem?.mp (List.mem_filter.mp hcell').1
  exact h x y cell ((hcell x).trans hx) d hd

/-- Only what shows nothing may start left of the canvas. -/
theorem Shows.nonneg {shown : List (String × Nat)} (h : c.Shows x y shown)
    (hpos : 0 < shown.length) : 0 ≤ x := by
  have hface := h 0 hpos
  rw [List.getElem?_eq_getElem hpos] at hface
  obtain ⟨cell, hcell, -⟩ := Option.map_eq_some_iff.mp hface
  have hnonneg := (nonneg_of_cell? hcell).1
  omega

/-- The cells of a row that show some faces have them. -/
theorem Shows.map_face {shown : List (String × Nat)} (h : c.Shows x y shown)
    (hrow : ∀ x' : Nat, c.cell? x' y = row[x']?) :
    ((row.drop x.toNat).take shown.length).map Cell.face = shown := by
  refine List.ext_getElem? fun i => ?_
  rcases Nat.lt_or_ge i shown.length with hlt | hge
  · have hx := h.nonneg (Nat.lt_of_le_of_lt (Nat.zero_le i) hlt)
    have hcolumn : x + i = (x.toNat + i : Nat) := by omega
    have hface := h i hlt
    rw [face?, hcolumn, hrow] at hface
    rw [List.getElem?_map, List.getElem?_take_of_lt hlt, List.getElem?_drop, hface]
  · rw [List.getElem?_map, List.getElem?_take_eq_none hge]
    exact (List.getElem?_eq_none hge).symm

/-- The cells that show some faces are a part of their row; the cells after them stand behind. -/
theorem Shows.exists_append {shown : List (String × Nat)} (h : c.Shows x y shown)
    (hrow : ∀ x' : Nat, c.cell? x' y = row[x']?) :
    ∃ front part back, row = front ++ part ++ back ∧ part.map Cell.face = shown ∧
      ∀ x' cell, x + shown.length ≤ x' → c.cell? x' y = some cell → cell ∈ back := by
  have hx : 0 < shown.length → 0 ≤ x := h.nonneg
  refine ⟨row.take x.toNat, (row.drop x.toNat).take shown.length,
    (row.drop x.toNat).drop shown.length, ?_, h.map_face hrow, ?_⟩
  · rw [List.append_assoc, List.take_append_drop, List.take_append_drop]
  · intro x' cell hle hcell
    obtain ⟨column, rfl⟩ := Int.eq_ofNat_of_zero_le (nonneg_of_cell? hcell).1
    have hcolumn : x.toNat + shown.length + (column - (x.toNat + shown.length)) = column := by omega
    rw [hrow] at hcell
    rw [List.drop_drop, List.mem_iff_getElem?]
    exact ⟨column - (x.toNat + shown.length), by rw [List.getElem?_drop, hcolumn, hcell]⟩

/-- A text left of ink is part of the line of its row. -/
theorem Shows.infix_plainLine [Text.Measure] {chars : List Char} {right : Int}
    (h : c.Shows x y (faces chars)) (hright : x + Text.width chars ≤ right) (hink : c.InkAt right y)
    (hrow : ∀ x' : Nat, c.cell? x' y = row[x']?) :
    chars <:+: plainLine row ∧ plainLine row ≠ [] := by
  obtain ⟨front, part, back, rfl, hpart, hbehind⟩ := h.exists_append hrow
  obtain ⟨cell, hcell, hinked⟩ := hink
  have hback := trimEnd_glyphs_ne_nil (hbehind right cell (by rwa [length_faces]) hcell) hinked
  have hline : plainLine (front ++ part ++ back) =
      glyphs front ++ chars ++ Text.trimEnd (glyphs back) := by
    rw [plainLine, glyphs_append, glyphs_append, glyphs_eq_of_map_face hpart]
    exact (Text.dropEndWhile_append _ _ _).trans (if_neg hback)
  rw [hline]
  exact ⟨List.infix_append _ _ _, List.append_ne_nil_of_right_ne_nil _ hback⟩

/-- A label that is displayed is part of a line of the picture. -/
theorem Displays.labelIn [Text.Measure] (h : c.Displays b text) (hb : b.Roomy)
    (hholds : c.Holds fun d => Text.isLineBreak d = false) : b.LabelIn (c.picture false) text := by
  obtain ⟨-, hlast, -⟩ := hb.label_inside text
  obtain ⟨cell, hcell, -⟩ := h.ink
  obtain ⟨n, hn⟩ := Int.eq_ofNat_of_zero_le (nonneg_of_cell? hcell).2
  obtain ⟨column, hcolumn⟩ := Int.eq_ofNat_of_zero_le (nonneg_of_cell? hcell).1
  rw [hn, hcolumn, cell?_natCast] at hcell
  obtain ⟨row, hrow, -⟩ := Option.bind_eq_some_iff.mp hcell
  have hcells : ∀ x : Nat, c.cell? x b.middle = row[x]? := by
    intro x
    rw [hn, cell?_natCast, hrow]
    rfl
  obtain ⟨hpart, hne⟩ := h.label.infix_plainLine hlast h.ink hcells
  refine ⟨n, hn, plainLine row, ?_, hpart, fun hfits => ?_⟩
  · rw [splitLines_picture hholds]
    exact getElem?_dropEmptyLines (by rw [List.getElem?_map, hrow]; rfl) hne
  · rwa [Text.fitText_eq_self hfits] at hpart

end Canvas

end Flowchart
