import Flowchart.Proofs.Canvas.Sketch
import Flowchart.Proofs.Canvas.Sound

/-! # Faces of cells

The face of a cell is its glyph and its width; tags do not change it.  An action leaves the faces of
an area alone if it puts no glyph there: a box with its label touches the cells of the box only
(`sameOn_drawLabelled`), a text the cells that it takes, and a trail its own cells.

Where a text was written, the cells show its faces: each character, and behind a wide one a covered
cell (`shows_write`).  The glyphs of such cells are the text (`glyphs_eq_of_map_face`). -/

namespace Flowchart

/-- The glyph of a cell and its width. -/
def Cell.face (cell : Cell) : String × Nat := (cell.glyph, cell.width)

/-- The faces of the cells that a character takes: its glyph, and a covered cell if it is wide. -/
def charFaces [Text.Measure] (d : Char) : List (String × Nat) :=
  (d.toString, Text.charWidth d) :: List.replicate (Text.charWidth d - 1) (" ", 0)

/-- The faces of the cells that some characters take. -/
def faces [Text.Measure] (chars : List Char) : List (String × Nat) := chars.flatMap charFaces

theorem length_charFaces [Text.Measure] (d : Char) : (charFaces d).length = Text.charWidth d := by
  have hwidth := Text.one_le_charWidth d
  rw [charFaces, List.length_cons, List.length_replicate]
  omega

theorem faces_cons [Text.Measure] (d : Char) (chars : List Char) :
    faces (d :: chars) = charFaces d ++ faces chars := rfl

theorem length_faces [Text.Measure] (chars : List Char) :
    (faces chars).length = Text.width chars := by
  induction chars with
  | nil => rfl
  | cons d chars ih =>
      rw [faces_cons, List.length_append, length_charFaces, ih, Text.width_cons]

theorem glyphs_append (row row' : List Cell) :
    glyphs (row ++ row') = glyphs row ++ glyphs row' := by
  rw [glyphs, List.filter_append, List.flatMap_append]
  rfl

theorem glyphs_eq_nil_of_map_face {row : List Cell} {count : Nat}
    (h : row.map Cell.face = List.replicate count (" ", 0)) : glyphs row = [] := by
  have hnone : row.filter Cell.isShown = [] := by
    refine List.filter_eq_nil_iff.mpr fun cell hcell => ?_
    have hface := List.eq_of_mem_replicate (h ▸ List.mem_map_of_mem hcell)
    have hwidth : cell.width = 0 := congrArg Prod.snd hface
    simp [Cell.isShown, hwidth]
  rw [glyphs, hnone]
  rfl

/-- Cells with the faces of a text read as the text. -/
theorem glyphs_eq_of_map_face [Text.Measure] {row : List Cell} {chars : List Char}
    (h : row.map Cell.face = faces chars) : glyphs row = chars := by
  induction chars generalizing row with
  | nil =>
      obtain rfl := List.map_eq_nil_iff.mp h
      rfl
  | cons d chars ih =>
      obtain ⟨taken, rest, rfl, htaken, hrest⟩ := List.map_eq_append_iff.mp h
      obtain ⟨cell, covered, rfl, hcell, hcovered⟩ := List.map_eq_cons_iff.mp htaken
      obtain ⟨hglyph, hwidth⟩ := Prod.mk.inj hcell
      have hshown : cell.isShown = true := by
        have hpos := Text.one_le_charWidth d
        simp only [Cell.isShown, hwidth, bne_iff_ne]
        omega
      rw [glyphs_append, glyphs_cons_of_shown hshown, glyphs_eq_nil_of_map_face hcovered, ih hrest,
        hglyph]
      simp

namespace Canvas

variable {c c₀ : Canvas} {x y x' y' : Int} {glyph tag : String} {width : Nat} {side : Side}
  {area : Place → Prop}

/-- The face of the cell at a place. -/
def face? (c : Canvas) (x y : Int) : Option (String × Nat) := (c.cell? x y).map Cell.face

theorem face?_put_of_ne (h : ¬ (x = x' ∧ y = y')) :
    (c.update x y (Cell.holding glyph width)).face? x' y' = c.face? x' y' := by
  rw [face?, cell?_update, if_neg h]
  rfl

theorem face?_put (hin : c.Inside x y) :
    (c.update x y (Cell.holding glyph width)).face? x y = some (glyph, width) := by
  obtain ⟨cell, hcell⟩ := Option.isSome_iff_exists.mp ((c.cell?_isSome_iff x y).mpr hin)
  rw [face?, cell?_update, if_pos ⟨rfl, rfl⟩, hcell]
  rfl

theorem face?_mark (c : Canvas) (x y : Int) (tag : String) (side : Side) (x' y' : Int) :
    (c.mark x y tag side).face? x' y' = c.face? x' y' := by
  by_cases htag : tag = ""
  · rw [mark, if_pos htag]
  · rw [mark_eq_update c x y htag, face?, cell?_update]
    split
    · rw [Option.map_map]
      cases side <;> rfl
    · rfl

theorem InkAt.of_face?_eq (h : c₀.InkAt x y) (heq : c.face? x y = c₀.face? x y) : c.InkAt x y := by
  obtain ⟨cell₀, hcell₀, hink⟩ := h
  rw [face?, face?, hcell₀] at heq
  obtain ⟨cell, hcell, hface⟩ := Option.map_eq_some_iff.mp heq
  obtain ⟨hglyph, hwidth⟩ := Prod.mk.inj hface
  refine ⟨cell, hcell, ?_, ?_⟩
  · rw [Cell.isShown, hwidth]
    exact hink.shown
  · rw [hglyph]
    exact hink.glyph

/-! ### What an action leaves alone -/

/-- The canvas shows on an area what another canvas shows there. -/
def SameOn (area : Place → Prop) (c₀ c : Canvas) : Prop :=
  ∀ x y, area (x, y) → c.face? x y = c₀.face? x y

theorem SameOn.refl (area : Place → Prop) (c : Canvas) : SameOn area c c := fun _ _ _ => rfl

theorem SameOn.put (h : SameOn area c₀ c) (hout : ¬ area (x, y)) (glyph : String) (width : Nat) :
    SameOn area c₀ (c.update x y (Cell.holding glyph width)) := by
  intro x' y' hin
  rw [face?_put_of_ne, h x' y' hin]
  rintro ⟨rfl, rfl⟩
  exact hout hin

theorem SameOn.mark (h : SameOn area c₀ c) (x y : Int) (tag : String) (side : Side) :
    SameOn area c₀ (c.mark x y tag side) := by
  intro x' y' hin
  rw [face?_mark, h x' y' hin]

theorem sameOn_drawGlyph (hout : ¬ area (x, y)) (d : Char) :
    Triple (SameOn area c₀) (drawGlyph x y d) fun _ => SameOn area c₀ :=
  Triple.drawGlyph fun _ hc _ => hc.put hout _ 1

theorem sameOn_write [Text.Measure] {text : String}
    (hout : ∀ x', x ≤ x' → x' < x + Text.displayWidth text → ¬ area (x', y)) :
    Triple (SameOn area c₀) (write x y text) fun _ => SameOn area c₀ := by
  refine ((Triple.write (P := fun first c => x ≤ first ∧ SameOn area c₀ c) (G := fun _ => True)
    trivial ?_ (fun _ _ => trivial) x (Int.le_refl _)).mono fun _ _ hc => hc.2.2).of_imp
    fun c hc => ⟨Int.le_refl x, hc⟩
  intro first glyph width hlt _
  refine Triple.put fun c hc _ => ⟨?_, hc.2.put (hout first hc.1 hlt) glyph width⟩
  exact Int.le_add_one hc.1

/-- A box with its label touches the cells of the box only. -/
theorem sameOn_drawLabelled [Text.Measure] {b : Box} (hb : b.Roomy)
    (hout : ∀ p, b.contains p = true → ¬ area p) (g : BoxGlyphs) (text tag : String) :
    Triple (SameOn area c₀) (drawLabelled g b text tag) fun _ => SameOn area c₀ := by
  obtain ⟨hfirst, hlast, habove, hbelow⟩ := hb.label_inside text
  refine triple_drawLabelled (fun _ x y tag side hc => hc.mark x y tag side) hb
    (fun d _ x y hin => sameOn_drawGlyph (hout _ hin) d)
    (sameOn_write fun x' hle hlt => hout _ ?_) tag
  rw [Box.contains_iff]
  omega

theorem sameOn_drawTrail {cells : List Place} (hout : ∀ p ∈ cells, ¬ area p) (d : Char) :
    Triple (SameOn area c₀) (drawTrail d cells) fun _ => SameOn area c₀ :=
  triple_drawTrail (fun _ x y tag side hc => hc.mark x y tag side)
    fun p hp => sameOn_drawGlyph (hout p hp) d

/-! ### What a text shows -/

/-- The cells of a row from a column on have some faces. -/
def Shows (x y : Int) (shown : List (String × Nat)) (c : Canvas) : Prop :=
  ∀ i : Nat, i < shown.length → c.face? (x + i) y = shown[i]?

instance (x y : Int) (shown : List (String × Nat)) (c : Canvas) : Decidable (c.Shows x y shown) :=
  inferInstanceAs (Decidable (∀ i : Nat, i < shown.length → _))

theorem shows_nil (x y : Int) (c : Canvas) : c.Shows x y [] := fun _ hi => nomatch hi

theorem Shows.of_sameOn {shown : List (String × Nat)} (h : c₀.Shows x y shown)
    (hsame : SameOn area c₀ c)
    (hin : ∀ x', x ≤ x' → x' < x + shown.length → area (x', y)) : c.Shows x y shown := by
  intro i hi
  rw [hsame _ _ (hin (x + i) (by omega) (by omega)), h i hi]

theorem Shows.mark {shown : List (String × Nat)} (h : c.Shows x y shown) (x' y' : Int)
    (tag : String) (side : Side) : (c.mark x' y' tag side).Shows x y shown := by
  intro i hi
  rw [face?_mark, h i hi]

theorem shows_put (x y : Int) (shown : List (String × Nat)) (glyph : String) (width : Nat) :
    Triple (Shows x y shown) (put (x + shown.length) y glyph width)
      fun _ => Shows x y (shown ++ [(glyph, width)]) := by
  refine Triple.put fun c hc hin i hi => ?_
  rw [List.length_append, List.length_singleton] at hi
  rcases Nat.lt_succ_iff_lt_or_eq.mp hi with hlt | rfl
  · rw [face?_put_of_ne (by omega), hc i hlt, List.getElem?_append_left hlt]
  · rw [face?_put hin, List.getElem?_concat_length]

theorem shows_cover (x y : Int) (shown : List (String × Nat)) (count : Nat) :
    Triple (Shows x y shown) (cover y count (x + shown.length))
      fun _ => Shows x y (shown ++ List.replicate count (" ", 0)) := by
  induction count generalizing shown with
  | zero =>
      rw [List.replicate_zero, List.append_nil]
      exact Triple.pure (Q := fun _ => Shows x y shown) ()
  | succ count ih =>
      have hnext : x + shown.length + 1 = x + (shown ++ [(" ", 0)]).length := by
        rw [List.length_append, List.length_singleton]
        omega
      refine (shows_put x y shown " " 0).bind fun _ => ?_
      have hfaces : shown ++ List.replicate (count + 1) (" ", 0) =
          shown ++ [(" ", 0)] ++ List.replicate count (" ", 0) :=
        List.append_cons shown (" ", 0) (List.replicate count (" ", 0))
      rw [hnext, hfaces]
      exact ih (shown ++ [(" ", 0)])

theorem shows_draw [Text.Measure] (x y : Int) (shown : List (String × Nat)) (d : Char) :
    Triple (Shows x y shown) (draw (x + shown.length) y d.toString (Text.charWidth d))
      fun _ => Shows x y (shown ++ charFaces d) := by
  have hwidth := Text.one_le_charWidth d
  have hcells : (max (Text.charWidth d : Int) 1).toNat = Text.charWidth d := by omega
  have hnext : x + shown.length + 1 =
      x + (shown ++ [(d.toString, Text.charWidth d)]).length := by
    rw [List.length_append, List.length_singleton]
    omega
  unfold draw
  dsimp only
  rw [hcells, charFaces, List.append_cons]
  refine (shows_put x y shown _ _).bind fun _ => ?_
  rw [hnext]
  exact shows_cover x y (shown ++ [(d.toString, Text.charWidth d)]) _

theorem shows_writeChars [Text.Measure] (x y : Int) (shown : List (String × Nat))
    (chars : List Char) :
    Triple (Shows x y shown) (writeChars y chars (x + shown.length))
      fun _ => Shows x y (shown ++ faces chars) := by
  induction chars generalizing shown with
  | nil =>
      rw [faces, List.flatMap_nil, List.append_nil]
      exact Triple.pure (Q := fun _ => Shows x y shown) _
  | cons d chars ih =>
      have hnext : x + shown.length + Text.charWidth d = x + (shown ++ charFaces d).length := by
        rw [List.length_append, length_charFaces]
        omega
      refine (shows_draw x y shown d).bind fun _ => ?_
      rw [hnext, faces_cons, ← List.append_assoc]
      exact ih (shown ++ charFaces d)

theorem shows_write [Text.Measure] (x y : Int) (text : String) :
    Triple (fun _ => True) (write x y text) fun _ => Shows x y (faces text.toList) := by
  have hwrite := shows_writeChars x y [] text.toList
  simp only [List.length_nil, List.nil_append] at hwrite
  rw [Int.natCast_zero, Int.add_zero] at hwrite
  exact hwrite.of_imp fun c _ => shows_nil x y c

end Canvas

end Flowchart
