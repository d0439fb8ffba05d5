import Flowchart.Proofs.Canvas.Faces
import Flowchart.Proofs.Canvas.Preview

/-! # What connectors leave alone

A connector puts glyphs on free cells only: its trail and its tip stand on free cells of its line,
and its label is written if all cells that it takes are free (`Sketch.retains_of_addConnector`).
What is not free stays as it is, and stays not free.  So this carries over from one connector to all
that follow (`Sketch.retains_of_foldlM`), from each sketch of a preview to the later ones
(`exists_sketches_of_preview`): once the shapes are drawn, the cells of their boxes and the cells
that show something keep their faces (`face?_eq_of_preview`). -/

namespace Flowchart

namespace Canvas

variable {c c' : Canvas} {x y : Int}

theorem isBlank_eq_true_iff : c.isBlank x y = true ↔ c.face? x y = some (" ", 1) := by
  unfold isBlank face?
  cases c.cell? x y with
  | none => simp
  | some cell => simp [Cell.isBlank, Cell.face, and_comm]

theorem isBlank_eq_false_of_face? {face : String × Nat} (h : c.face? x y = some face)
    (hne : face ≠ (" ", 1)) : c.isBlank x y = false := by
  rw [← Bool.not_eq_true, isBlank_eq_true_iff, h]
  exact fun heq => hne (Option.some.inj heq)

theorem isBlank_eq_of_face?_eq (h : c'.face? x y = c.face? x y) :
    c'.isBlank x y = c.isBlank x y := by
  rw [Bool.eq_iff_iff, isBlank_eq_true_iff, isBlank_eq_true_iff, h]

end Canvas

namespace Sketch

open Canvas (Triple SameOn)

variable {s s' s'' : Sketch} {ascii : Bool} {o : Origin} {p : Place}

/-- A place lies in a box. -/
def Boxed (s : Sketch) (p : Place) : Prop := ∃ b ∈ s.boxes, b.contains p = true

/-- A place is free or not: it lies in a box, or it shows something. -/
theorem isFree_eq_false_iff :
    s.isFree p = false ↔ s.Boxed p ∨ s.canvas.isBlank p.1 p.2 = false := by
  simp only [isFree, Boxed, Bool.and_eq_false_iff, Bool.not_eq_eq_eq_not, Bool.not_false,
    List.any_eq_true]
  exact Or.comm

/-- The second sketch has the boxes of the first one and shows the same on all of its cells that are
not free. -/
structure Retains (s s' : Sketch) : Prop where
  boxes : s'.boxes = s.boxes
  same : SameOn (fun p => s.isFree p = false) s.canvas s'.canvas

theorem Retains.refl (s : Sketch) : s.Retains s := ⟨rfl, .refl _ _⟩

theorem Retains.isFree_eq_false (h : s.Retains s') (hp : s.isFree p = false) :
    s'.isFree p = false := by
  rw [isFree_eq_false_iff] at hp ⊢
  rwa [Boxed, h.boxes, Canvas.isBlank_eq_of_face?_eq (h.same p.1 p.2 (isFree_eq_false_iff.mpr hp))]

theorem Retains.trans (h : s.Retains s') (h' : s'.Retains s'') : s.Retains s'' where
  boxes := h'.boxes.trans h.boxes
  same x y hin := (h'.same x y (h.isFree_eq_false hin)).trans (h.same x y hin)

theorem Retains.sameOn_boxed (h : s.Retains s') : SameOn s.Boxed s.canvas s'.canvas :=
  fun x y hin => h.same x y (isFree_eq_false_iff.mpr (.inl hin))

theorem boxes_of_perform {act : Canvas.Action Unit} (h : s.perform act = .ok s') :
    s'.boxes = s.boxes := by
  obtain ⟨canvas, boxes⟩ := s
  simp only [perform] at h
  split at h
  · obtain rfl := Except.ok.inj h
    rfl
  · cases h

/-- An action that leaves alone what was not free at first may be carried out. -/
theorem Retains.perform (h : s.Retains s') {act : Canvas.Action Unit}
    (hact : Triple (SameOn (fun p => s.isFree p = false) s.canvas) act
      fun _ => SameOn (fun p => s.isFree p = false) s.canvas)
    (hrun : s'.perform act = .ok s'') : s.Retains s'' :=
  ⟨(boxes_of_perform hrun).trans h.boxes, of_perform hact h.same hrun⟩

theorem retains_of_addLabel [Text.Measure] {text : String} {stretch : List Place}
    (h : s.addLabel text stretch = .ok s') : s.Retains s' := by
  rcases cases_of_addLabel h with ⟨-, rfl⟩ | ⟨hfree, hwrite⟩
  · exact .refl _
  · refine (Retains.refl s).perform (Triple.bind (Canvas.sameOn_write fun x hle hlt => ?_)
      fun _ => Triple.pure (Q := fun _ => SameOn _ s.canvas) ()) hwrite
    rw [hfree (x, (labelPlace stretch).2) (mem_labelCells.mpr ⟨rfl, hle, hlt⟩)]
    decide

theorem retains_of_addLine [Text.Measure] {start stop : Place} {text : String}
    (h : s.addLine ascii start stop text = .ok s') : s.Retains s' := by
  have hout : ∀ p ∈ s.freeStretch (lineCells start stop), ¬ s.isFree p = false := by
    intro p hp
    rw [isFree_of_mem_freeStretch hp]
    decide
  rcases cases_of_addLine h with ⟨-, rfl⟩ | ⟨x, y, trail, tip, hlast, htrail, htip, hlabel⟩
  · exact .refl _
  · have htrail : s.Retains trail := (Retains.refl s).perform
      (Canvas.sameOn_drawTrail (fun p hp => hout p (List.mem_of_mem_dropLast hp)) _) htrail
    have htip : s.Retains tip := htrail.perform
      (Canvas.sameOn_drawGlyph (hout _ (List.mem_of_getLast? hlast)) _) htip
    rcases hlabel with ⟨-, rfl⟩ | ⟨-, hlabel⟩
    · exact htip
    · exact htip.trans (retains_of_addLabel hlabel)

theorem retains_of_addConnector [Text.Measure] {c : ConnectorElement}
    (h : s.addConnector ascii o c = .ok s') :
    s.Retains s' := by
  obtain ⟨start, stop, -, h⟩ := exists_of_addConnector h
  exact retains_of_addLine h

theorem retains_of_foldlM [Text.Measure] {connectors : List ConnectorElement}
    (h : connectors.foldlM (addConnector ascii o) s = .ok s') : s.Retains s' :=
  of_foldlM_eq_ok (P := s.Retains) (fun _ _ _ _ hs hadd => hs.trans (retains_of_addConnector hadd))
    (.refl s) h

/-- The boxes of drawn shapes are those that the shapes have. -/
theorem exists_boxes_of_foldlM [Text.Measure] {shapes : List ShapeElement}
    (h : shapes.foldlM (addShape ascii o) s = .ok s') :
    ∃ boxes, List.Forall₂ (fun e b => e.box o = .ok b) shapes boxes ∧
      s'.boxes = s.boxes ++ boxes := by
  induction shapes generalizing s with
  | nil =>
      obtain rfl := Except.ok.inj h
      exact ⟨[], .nil, (List.append_nil _).symm⟩
  | cons e shapes ih =>
      rw [List.foldlM_cons] at h
      obtain ⟨next, hnext, h⟩ := exists_of_bind_eq_ok h
      obtain ⟨b, drawn, hbox, hdrawn, rfl⟩ := exists_of_addShape hnext
      obtain ⟨boxes, hboxes, heq⟩ := ih h
      refine ⟨b :: boxes, .cons hbox hboxes, ?_⟩
      rw [heq, boxes_of_perform hdrawn, List.append_assoc]
      rfl

variable [Text.Measure] {first e : ShapeElement} {others : List ShapeElement}
  {connectors : List ConnectorElement}

/-- The boxes of the shapes are boxes of the sketch. -/
theorem boxed_of_sketchOf (h : sketchOf ascii first others connectors = .ok s)
    (he : e ∈ first :: others) {b : Box} (hbox : e.box (originOf first others) = .ok b)
    (hin : b.contains p = true) : s.Boxed p := by
  obtain ⟨canvas, -, h⟩ := exists_of_bind_eq_ok h
  obtain ⟨drawn, hdrawn, h⟩ := exists_of_bind_eq_ok h
  obtain ⟨boxes, hboxes, heq⟩ := exists_boxes_of_foldlM hdrawn
  obtain ⟨b', hb', hbox'⟩ := exists_mem_of_forall₂ hboxes he
  obtain rfl := Except.ok.inj (hbox.symm.trans hbox')
  refine ⟨b, ?_, hin⟩
  rw [(retains_of_foldlM h).boxes, heq]
  exact hb'

/-- A sketch is made by drawing the last connectors on that of the first ones. -/
theorem exists_of_sketchOf_append {before after : List ConnectorElement}
    (h : sketchOf ascii first others (before ++ after) = .ok s) :
    ∃ mid, sketchOf ascii first others before = .ok mid ∧
      after.foldlM (addConnector ascii (originOf first others)) mid = .ok s := by
  obtain ⟨canvas, hcanvas, h⟩ := exists_of_bind_eq_ok h
  obtain ⟨drawn, hdrawn, h⟩ := exists_of_bind_eq_ok h
  rw [List.foldlM_append] at h
  obtain ⟨mid, hmid, h⟩ := exists_of_bind_eq_ok h
  exact ⟨mid, bind_eq_ok hcanvas (bind_eq_ok hdrawn hmid), h⟩

/-- One more connector is drawn on the sketch of those before it. -/
theorem addConnector_of_sketchOf_take {n : Nat} {c : ConnectorElement}
    (hn : connectors[n]? = some c)
    (h : sketchOf ascii first others (connectors.take n) = .ok s)
    (h' : sketchOf ascii first others (connectors.take (n + 1)) = .ok s') :
    s.addConnector ascii (originOf first others) c = .ok s' := by
  rw [List.take_add_one, hn, Option.toList_some] at h'
  obtain ⟨mid, hmid, h'⟩ := exists_of_sketchOf_append h'
  obtain rfl := Except.ok.inj (hmid.symm.trans h)
  rw [List.foldlM_cons] at h'
  obtain ⟨next, hnext, h'⟩ := exists_of_bind_eq_ok h'
  obtain rfl := Except.ok.inj h'
  exact hnext

end Sketch

/-- The sketches behind a preview, from the one of the shapes to the one that is shown: each of them
keeps what is not free in the ones before. -/
theorem exists_sketches_of_preview [Text.Measure] {elements : List Element} {style shown : String}
    {marked : Bool} {first : ShapeElement} {others : List ShapeElement}
    (hshapes : elements.filterMap Element.shape? = first :: others)
    (h : preview elements style marked = .ok shown) :
    ∃ sketch : Nat → Sketch,
      (∀ n, sketchOf (BoxGlyphs.isAsciiName style) first others
        ((elements.filterMap Element.connector?).take n) = .ok (sketch n)) ∧
      (sketch (elements.filterMap Element.connector?).length).canvas.picture marked = shown ∧
      ∀ m n, m ≤ n → (sketch m).Retains (sketch n) := by
  obtain ⟨s, hs, rfl⟩ := (preview_eq_ok_iff hshapes).mp h
  have hall : ∀ n, ∃ t, sketchOf (BoxGlyphs.isAsciiName style) first others
      ((elements.filterMap Element.connector?).take n) = .ok t := by
    intro n
    rw [← List.take_append_drop n (elements.filterMap Element.connector?)] at hs
    obtain ⟨t, ht, -⟩ := Sketch.exists_of_sketchOf_append hs
    exact ⟨t, ht⟩
  choose sketch hsketch using hall
  refine ⟨sketch, hsketch, ?_, fun m n hle => ?_⟩
  · have hlast := hsketch (elements.filterMap Element.connector?).length
    rw [List.take_length] at hlast
    rw [Except.ok.inj (hlast.symm.trans hs)]
  · have hlater := hsketch n
    rw [← List.take_append_drop m ((elements.filterMap Element.connector?).take n),
      List.take_take, Nat.min_eq_left hle] at hlater
    obtain ⟨mid, hmid, hlater⟩ := Sketch.exists_of_sketchOf_append hlater
    obtain rfl := Except.ok.inj (hmid.symm.trans (hsketch m))
    exact Sketch.retains_of_foldlM hlater

/-- **Connectors damage nothing.**  Without shapes nothing is drawn.  Otherwise the sketch behind a
preview is made of the shapes and then of one connector after the other.  Once the shapes are drawn,
and from any connector on, the cells of all boxes and all cells that show something keep their
glyphs and widths, up to the picture that is shown. -/
theorem face?_eq_of_preview [Text.Measure] {elements : List Element} {style shown : String}
    {marked : Bool} (h : preview elements style marked = .ok shown) :
    (elements.filterMap Element.shape? = [] → shown = "") ∧
    ∀ first others, elements.filterMap Element.shape? = first :: others →
      ∃ sketch : Nat → Sketch,
        (∀ n, sketchOf (BoxGlyphs.isAsciiName style) first others
          ((elements.filterMap Element.connector?).take n) = .ok (sketch n)) ∧
        (sketch (elements.filterMap Element.connector?).length).canvas.picture marked = shown ∧
        ∀ m n x y, m ≤ n →
          ((∃ e ∈ first :: others, ∃ b, e.box (originOf first others) = .ok b ∧
              b.contains (x, y) = true) ∨ (sketch m).canvas.isBlank x y = false) →
          (sketch n).canvas.face? x y = (sketch m).canvas.face? x y := by
  refine ⟨fun hshapes => ?_, fun first others hshapes => ?_⟩
  · rw [preview, hshapes] at h
    exact (Except.ok.inj h).symm
  · obtain ⟨sketch, hsketch, hpicture, hretains⟩ := exists_sketches_of_preview hshapes h
    refine ⟨sketch, hsketch, hpicture, fun m n x y hle hcell => ?_⟩
    refine (hretains m n hle).same x y (Sketch.isFree_eq_false_iff.mpr (hcell.imp_left ?_))
    rintro ⟨e, he, b, hbox, hin⟩
    exact Sketch.boxed_of_sketchOf (hsketch m) he hbox hin

/-- Two connectors, of which the second runs into the wide label of the first. -/
def crossing : List Element :=
  [plainShape "a" .rectangle 0 0 "a", plainShape "b" .diamond 0 160 "b",
   plainShape "c" .ellipse 160 0 "c",
   .connector { id := "arrow-a-b", start := ⟨60, 30⟩, stop := ⟨60, 190⟩, text := some "日本",
                style := .ofConnector, startArrowhead := none, endArrowhead := some "arrow",
                seed := 0, nonce := 0 },
   .connector { id := "arrow-c-a", start := ⟨220, 30⟩, stop := ⟨60, 130⟩, text := none,
                style := .ofConnector, startArrowhead := none, endArrowhead := some "arrow",
                seed := 0, nonce := 0 }]

theorem face?_eq_of_preview_crossing :
    ∃ shown first others c c', preview crossing "unicode" false = .ok shown ∧
      crossing.filterMap Element.shape? = first :: others ∧
      crossing.filterMap Element.connector? = [c, c'] ∧
      ∃ shapes labelled crossed, sketchOf false first others [] = .ok shapes ∧
        sketchOf false first others [c] = .ok labelled ∧
        sketchOf false first others [c, c'] = .ok crossed ∧ crossed.canvas.picture false = shown ∧
        shapes.canvas.face? 2 10 = some (" ", 1) ∧ crossed.canvas.face? 2 10 = some (" ", 1) ∧
        labelled.canvas.face? 8 6 = some ("日", 2) ∧ crossed.canvas.face? 8 6 = some ("日", 2) := by
  have hdrawn : (fun _ => ()) <$> preview crossing "unicode" false = .ok () := by decide +kernel
  obtain ⟨shown, hshown, -⟩ := exists_of_map_eq_ok hdrawn
  obtain ⟨sketch, hsketch, hpicture, hkeep⟩ := (face?_eq_of_preview hshown).2 _ _ rfl
  have hpadding : (fun s : Sketch => s.canvas.face? 2 10) <$> .ok (sketch 0) =
      (.ok (some (" ", 1)) : Except PreviewError _) := by
    rw [← hsketch 0]
    decide +kernel
  have hlabel : (fun s : Sketch => (s.canvas.isBlank 8 6, s.canvas.face? 8 6)) <$> .ok (sketch 1) =
      (.ok (false, some ("日", 2)) : Except PreviewError _) := by
    rw [← hsketch 1]
    decide +kernel
  have hpadding := Except.ok.inj hpadding
  obtain ⟨hblank, hlabel⟩ := Prod.mk.inj (Except.ok.inj hlabel)
  refine ⟨shown, _, _, _, _, hshown, rfl, rfl, sketch 0, sketch 1, sketch 2, hsketch 0, hsketch 1,
    hsketch 2, hpicture, hpadding, ?_, hlabel, ?_⟩
  · refine (hkeep 0 2 2 10 (by decide) (.inl ?_)).trans hpadding
    exact ⟨_, List.mem_cons_of_mem _ List.mem_cons_self, ⟨1, 9, 12, 11⟩, by decide +kernel,
      by decide⟩
  · exact (hkeep 1 2 8 6 (by decide) (.inr hblank)).trans hlabel

end Flowchart
