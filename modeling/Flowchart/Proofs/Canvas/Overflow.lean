import Flowchart.Proofs.Canvas.Faces

/-! # Drawing beyond a canvas

A stroke draws a glyph or a text.  It puts one face after the other into the cells of a row
(`Stroke.perform_eq`), and stops at the first cell that is not on the canvas.  How many cells are
can be told beforehand (`room`), so that a run of a stroke is known in full (`run_putFaces`): it
puts all of its faces, or those for which there is room before it overflows.

Nothing is undone when it overflows.  The faces that were put stay, and all other cells and all tags
are as before (`overlaid_of_overflow`); a text may thus leave its first characters
(`ne_of_overflow_edge`). -/

namespace Flowchart

namespace Canvas

variable {c c' : Canvas} {x y x' y' : Int} {shown : List (String × Nat)}

/-! ### Equal canvases -/

theorem ext_cell? (hwidth : c'.width = c.width) (hheight : c'.height = c.height)
    (h : ∀ x y, c'.cell? x y = c.cell? x y) : c' = c := by
  obtain ⟨width, height, rows⟩ := c
  obtain ⟨width', height', rows'⟩ := c'
  dsimp only at hwidth hheight
  subst hwidth hheight
  congr 1
  ext i hi j hj : 2
  have hcell := h j i
  simp only [cell?] at hcell
  rw [dif_pos (by dsimp only [Inside]; omega), dif_pos (by dsimp only [Inside]; omega)] at hcell
  exact Option.some.inj hcell

/-- The tags of the cell at a place. -/
def tags? (c : Canvas) (x y : Int) : Option (List String × List String) :=
  (c.cell? x y).map fun cell => (cell.opening, cell.closing)

theorem cell?_eq_iff : c'.cell? x y = c.cell? x y ↔
    c'.face? x y = c.face? x y ∧ c'.tags? x y = c.tags? x y := by
  unfold face? tags?
  constructor
  · intro h
    rw [h]
    exact ⟨rfl, rfl⟩
  · rintro ⟨hface, htags⟩
    cases hcell : c.cell? x y with
    | none =>
        rw [hcell] at hface
        simpa using hface
    | some cell =>
        rw [hcell] at hface htags
        obtain ⟨cell', hcell', hface⟩ := Option.map_eq_some_iff.mp hface
        rw [hcell'] at htags ⊢
        obtain ⟨hglyph, hwidth⟩ := Prod.mk.inj hface
        obtain ⟨hopening, hclosing⟩ := Prod.mk.inj (Option.some.inj htags)
        cases cell
        cases cell'
        simp_all

/-! ### Faces in a row -/

/-- The number of cells from a place to the end of its row. -/
def room (c : Canvas) (x y : Int) : Nat :=
  if 0 ≤ x ∧ 0 ≤ y ∧ y < c.height then (c.width - x).toNat else 0

theorem room_of_inside (h : c.Inside x y) : c.room x y = c.room (x + 1) y + 1 := by
  unfold Inside at h
  unfold room
  rw [if_pos (by omega), if_pos (by omega)]
  omega

theorem room_of_not_inside (h : ¬ c.Inside x y) : c.room x y = 0 := by
  unfold Inside at h
  unfold room
  split <;> omega

theorem inside_of_lt_room {i : Nat} (h : i < c.room x y) : c.Inside (x + i) y := by
  unfold room at h
  unfold Inside
  split at h <;> omega

theorem not_inside_room (c : Canvas) (x y : Int) : ¬ c.Inside (x + c.room x y) y := by
  unfold room Inside
  split <;> omega

/-- Puts faces into the cells of a row from a column on. -/
def putFaces (y : Int) : List (String × Nat) → Int → Action Unit
  | [], _ => pure ()
  | face :: rest, x => do
    put x y face.1 face.2
    putFaces y rest (x + 1)

/-- The second canvas shows some faces from a place on, and is the first one otherwise. -/
structure Overlaid (x y : Int) (shown : List (String × Nat)) (c c' : Canvas) : Prop where
  width : c'.width = c.width
  height : c'.height = c.height
  tags : ∀ x' y', c'.tags? x' y' = c.tags? x' y'
  shows : c'.Shows x y shown
  same : SameOn (fun p => ¬ (p.2 = y ∧ x ≤ p.1 ∧ p.1 < x + shown.length)) c c'

theorem Overlaid.nil (x y : Int) (c : Canvas) : Overlaid x y [] c c :=
  ⟨rfl, rfl, fun _ _ => rfl, shows_nil x y c, .refl _ c⟩

/-- Nothing has changed exactly if the faces were shown before. -/
theorem Overlaid.eq_iff (h : Overlaid x y shown c c') : c' = c ↔ c.Shows x y shown := by
  constructor
  · rintro rfl
    exact h.shows
  · intro hshows
    refine ext_cell? h.width h.height fun x' y' => cell?_eq_iff.mpr ⟨?_, h.tags x' y'⟩
    by_cases hin : y' = y ∧ x ≤ x' ∧ x' < x + shown.length
    · obtain ⟨rfl, hle, hlt⟩ := hin
      have hi : (x' - x).toNat < shown.length := by omega
      have hx : x + ((x' - x).toNat : Int) = x' := by omega
      have hface := (h.shows _ hi).trans (hshows _ hi).symm
      rwa [hx] at hface
    · exact h.same x' y' hin

theorem Overlaid.cons {face : String × Nat} (hin : c.Inside x y)
    (h : Overlaid (x + 1) y shown (c.update x y (Cell.holding face.1 face.2)) c') :
    Overlaid x y (face :: shown) c c' := by
  refine ⟨h.width.trans (width_update ..), h.height.trans (height_update ..), fun x' y' => ?_,
    fun i hi => ?_, fun x' y' hout => ?_⟩
  · rw [h.tags, tags?, tags?, cell?_update]
    split
    · rw [Option.map_map]
      rfl
    · rfl
  · cases i with
    | zero =>
        have hfirst := h.same x y (by dsimp only; omega)
        rw [Int.natCast_zero, Int.add_zero, hfirst, face?_put hin]
        rfl
    | succ i =>
        have hx : x + ((i + 1 : Nat) : Int) = x + 1 + i := by omega
        rw [hx, h.shows i (Nat.lt_of_succ_lt_succ hi), List.getElem?_cons_succ]
  · dsimp only at hout
    rw [List.length_cons] at hout
    rw [h.same x' y' (by dsimp only; omega), face?_put_of_ne (by omega)]

/-- Faces are put into the cells for which there is room; one cell too many is an overflow. -/
theorem run_putFaces (y : Int) (shown : List (String × Nat)) (x : Int) (c : Canvas) :
    ∃ c', Overlaid x y (shown.take (c.room x y)) c c' ∧
      (putFaces y shown x).run c =
        if shown.length ≤ c.room x y then .ok () c'
        else .error ⟨x + c.room x y, y, c.width, c.height⟩ c' := by
  induction shown generalizing x c with
  | nil =>
      refine ⟨c, ?_, ?_⟩
      · rw [List.take_nil]
        exact .nil x y c
      · simp [putFaces]
  | cons face shown ih =>
      rw [putFaces, EStateM.run_bind, run_put]
      by_cases hin : c.Inside x y
      · obtain ⟨c', hover, hrun⟩ := ih (x + 1) (c.update x y (Cell.holding face.1 face.2))
        have hroom : (c.update x y (Cell.holding face.1 face.2)).room (x + 1) y =
            c.room (x + 1) y := by
          simp only [room, width_update, height_update]
        rw [hroom] at hover hrun
        have hnext : x + 1 + (c.room (x + 1) y : Int) =
            x + ((c.room (x + 1) y + 1 : Nat) : Int) := by
          omega
        rw [room_of_inside hin, if_pos hin, List.take_succ_cons]
        refine ⟨c', hover.cons hin, ?_⟩
        rw [width_update, height_update, hnext] at hrun
        simpa using hrun
      · rw [room_of_not_inside hin, if_neg hin]
        refine ⟨c, .nil x y c, ?_⟩
        simp

theorem putFaces_append (y : Int) (shown more : List (String × Nat)) (x : Int) :
    putFaces y (shown ++ more) x = (do
      putFaces y shown x
      putFaces y more (x + shown.length)) := by
  induction shown generalizing x with
  | nil => simp [putFaces]
  | cons face shown ih =>
      have hnext : x + 1 + (shown.length : Int) = x + ((face :: shown).length : Int) := by
        rw [List.length_cons]
        omega
      rw [List.cons_append, putFaces, putFaces, ih, hnext, bind_assoc]

/-! ### Strokes -/

/-- The faces of a glyph that takes a number of cells, at least one. -/
def glyphFaces (glyph : String) (width : Int) : List (String × Nat) :=
  (glyph, (max width 1).toNat) :: List.replicate ((max width 1).toNat - 1) (" ", 0)

theorem cover_eq_putFaces (y : Int) (count : Nat) (x : Int) :
    cover y count x = putFaces y (List.replicate count (" ", 0)) x := by
  induction count generalizing x with
  | zero => rfl
  | succ count ih => rw [cover, List.replicate_succ, putFaces, ih]

theorem draw_eq_putFaces (x y : Int) (glyph : String) (width : Int) :
    draw x y glyph width = putFaces y (glyphFaces glyph width) x := by
  unfold draw
  dsimp only
  rw [cover_eq_putFaces]
  rfl

theorem glyphFaces_charWidth [Text.Measure] (d : Char) :
    glyphFaces d.toString (Text.charWidth d) = charFaces d := by
  have hwidth := Text.one_le_charWidth d
  have hcells : (max (Text.charWidth d : Int) 1).toNat = Text.charWidth d := by omega
  rw [glyphFaces, charFaces, hcells]

theorem writeChars_eq_putFaces [Text.Measure] (y : Int) (chars : List Char) (x : Int) :
    writeChars y chars x = (do
      putFaces y (faces chars) x
      pure (x + Text.width chars)) := by
  induction chars generalizing x with
  | nil =>
      have hstop : x + ((Text.width [] : Nat) : Int) = x := Int.add_zero x
      rw [hstop]
      rfl
  | cons d chars ih =>
      have hstop : x + (Text.charWidth d : Int) + Text.width chars =
          x + (Text.width (d :: chars) : Nat) := by
        rw [Text.width_cons]
        omega
      rw [writeChars, ih, draw_eq_putFaces, glyphFaces_charWidth, faces_cons, putFaces_append,
        length_charFaces, hstop, bind_assoc]

end Canvas

open Canvas (Action Overlaid)

/-- A call that draws into a row: a glyph that takes some cells, or a text. -/
inductive Stroke
  | glyph (x y : Int) (shown : String) (width : Int)
  | text (x y : Int) (shown : String)

namespace Stroke

/-- The column where a stroke begins. -/
def x : Stroke → Int
  | .glyph x _ _ _ => x
  | .text x _ _ => x

/-- The row of a stroke. -/
def y : Stroke → Int
  | .glyph _ y _ _ => y
  | .text _ y _ => y

/-- What a stroke puts into its cells. -/
def faces [Text.Measure] : Stroke → List (String × Nat)
  | .glyph _ _ shown width => Canvas.glyphFaces shown width
  | .text _ _ shown => Flowchart.faces shown.toList

/-- Carries out a stroke. -/
def perform [Text.Measure] : Stroke → Action Unit
  | .glyph x y shown width => Canvas.draw x y shown width
  | .text x y shown => do let _ ← Canvas.write x y shown

theorem perform_eq [Text.Measure] (s : Stroke) : s.perform = Canvas.putFaces s.y s.faces s.x := by
  cases s with
  | glyph x y shown width => exact Canvas.draw_eq_putFaces x y shown width
  | text x y shown =>
      have hwrite := Canvas.writeChars_eq_putFaces y shown.toList x
      simp only [perform, Canvas.write, hwrite, bind_assoc, pure_bind]
      exact bind_pure_unit

end Stroke

/-- **Drawing beyond a canvas.**  A stroke for which there is room ends well, with its faces in its
cells.  Otherwise it overflows at the first cell that is not on the canvas.  What it put into the
cells before stays, and everything else is as it was, in particular the size and all tags.  So the
canvas is unchanged exactly if those cells showed these faces before, as always when the stroke
begins outside or takes one cell only. -/
theorem overlaid_of_overflow [Text.Measure] (c : Canvas) (s : Stroke) :
    (s.faces.length ≤ c.room s.x s.y →
      ∃ c', s.perform.run c = .ok () c' ∧ Overlaid s.x s.y s.faces c c') ∧
    (c.room s.x s.y < s.faces.length →
      ¬ c.Inside (s.x + c.room s.x s.y) s.y ∧ (∀ i < c.room s.x s.y, c.Inside (s.x + i) s.y) ∧
      ∃ c', s.perform.run c = .error ⟨s.x + c.room s.x s.y, s.y, c.width, c.height⟩ c' ∧
        Overlaid s.x s.y (s.faces.take (c.room s.x s.y)) c c' ∧
        (c' = c ↔ c.Shows s.x s.y (s.faces.take (c.room s.x s.y))) ∧
        (¬ c.Inside s.x s.y ∨ s.faces.length = 1 → c' = c)) := by
  obtain ⟨c', hover, hrun⟩ := Canvas.run_putFaces s.y s.faces s.x c
  rw [← s.perform_eq] at hrun
  constructor
  · intro hroom
    rw [if_pos hroom] at hrun
    rw [List.take_of_length_le hroom] at hover
    exact ⟨c', hrun, hover⟩
  · intro hroom
    rw [if_neg (Nat.not_le.mpr hroom)] at hrun
    refine ⟨c.not_inside_room s.x s.y, fun i => Canvas.inside_of_lt_room, c', hrun, hover,
      hover.eq_iff, fun hnone => hover.eq_iff.mpr ?_⟩
    have hzero : c.room s.x s.y = 0 := by
      rcases hnone with hout | hone
      · exact Canvas.room_of_not_inside hout
      · omega
    rw [hzero, List.take_zero]
    exact Canvas.shows_nil s.x s.y c

/-- A text for which there is room, and one behind it that has room for its first character only. -/
theorem overlaid_of_overflow_row :
    ∃ c c', (Stroke.text 0 0 "日").perform.run (.empty 3 1) = .ok () c ∧
      (Stroke.text 2 0 "ab").perform.run c = .error ⟨3, 0, 3, 1⟩ c' ∧
      c'.face? 0 0 = some ("日", 2) ∧ c'.face? 2 0 = some ("a", 1) := by
  obtain ⟨c, hrun, hover⟩ := (overlaid_of_overflow (.empty 3 1) (.text 0 0 "日")).1
    (by decide +kernel)
  have hroom : c.room 2 0 = 1 := by
    rw [Canvas.room, hover.width, hover.height]
    rfl
  obtain ⟨-, -, c', hrun', hover', -⟩ := (overlaid_of_overflow c (.text 2 0 "ab")).2
    (by rw [Stroke.x, Stroke.y, hroom]; decide +kernel)
  rw [Stroke.x, Stroke.y, hroom] at hrun' hover'
  rw [hover.width, hover.height] at hrun'
  refine ⟨c, c', hrun, hrun', ?_, hover'.shows 0 (by decide +kernel)⟩
  rw [hover'.same 0 0 (by decide +kernel)]
  exact hover.shows 0 (by decide +kernel)

/-- Strokes that overflow and leave the canvas changed: a text whose last character is beyond the
edge, and a wide glyph on the last cell. -/
theorem ne_of_overflow_edge :
    (∃ o c', (Stroke.text 1 0 "abc").perform.run (.empty 3 1) = .error o c' ∧
      c' ≠ .empty 3 1) ∧
    ∃ o c', (Stroke.glyph 2 0 "日" 2).perform.run (.empty 3 1) = .error o c' ∧
      c' ≠ .empty 3 1 := by
  constructor
  · obtain ⟨c', hover, hrun⟩ := Canvas.run_putFaces 0 (Stroke.text 1 0 "abc").faces 1 (.empty 3 1)
    refine ⟨_, c', (congrArg (EStateM.run · _) (Stroke.perform_eq _)).trans hrun, fun heq => ?_⟩
    exact absurd (hover.eq_iff.mp heq) (by decide +kernel)
  · obtain ⟨c', hover, hrun⟩ :=
      Canvas.run_putFaces 0 (Stroke.glyph 2 0 "日" 2).faces 2 (.empty 3 1)
    refine ⟨_, c', (congrArg (EStateM.run · _) (Stroke.perform_eq _)).trans hrun, fun heq => ?_⟩
    exact absurd (hover.eq_iff.mp heq) (by decide +kernel)

end Flowchart
