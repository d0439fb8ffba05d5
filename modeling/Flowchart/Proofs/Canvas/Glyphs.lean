import Flowchart.Proofs.Canvas.Sketch
import Flowchart.Proofs.Canvas.Sound
import Flowchart.Proofs.Text.Fit

/-! # The characters of a drawing

Which characters a canvas holds is an invariant of sketches: they are those of the glyphs and of the
labels, blanks and ellipses (`MadeOf.invariant_holds`), one to a cell (`Sketch.invariant_char`).
The runs of a picture are made of them (`Canvas.Holds.of_mem_segments`).

A run of plain characters, which are neither opening brackets nor backslashes, is legible in front
of anything (`Markup.Legible.of_plain`). -/

namespace Flowchart

variable {P : Char → Prop}

namespace Canvas

/-- All glyphs of a canvas are of some form. -/
def AllGlyphs (G : String → Prop) (c : Canvas) : Prop :=
  ∀ x y cell, c.cell? x y = some cell → G cell.glyph

/-- All glyphs of a canvas are made of some characters. -/
def Holds (P : Char → Prop) (c : Canvas) : Prop :=
  ∀ x y cell, c.cell? x y = some cell → ∀ d ∈ cell.glyph.toList, P d

section
variable {G : String → Prop} {c : Canvas} {x y : Int} {glyph tag : String} {width : Nat}
  {side : Side}

theorem allGlyphs_empty (hblank : G " ") (width height : Int) :
    (empty width height).AllGlyphs G := by
  intro x y cell hcell
  rw [eq_blank_of_empty hcell]
  exact hblank

theorem AllGlyphs.put (h : c.AllGlyphs G) (hglyph : G glyph) :
    (c.update x y (Cell.holding glyph width)).AllGlyphs G := by
  intro x₁ y₁ cell hcell
  rw [cell?_update] at hcell
  split at hcell
  · obtain ⟨old, -, rfl⟩ := Option.map_eq_some_iff.mp hcell
    exact hglyph
  · exact h x₁ y₁ cell hcell

theorem AllGlyphs.mark (h : c.AllGlyphs G) : (c.mark x y tag side).AllGlyphs G := by
  unfold Canvas.mark
  split
  · exact h
  · intro x₁ y₁ cell hcell
    rw [cell?_update] at hcell
    split at hcell
    · obtain ⟨old, hold, rfl⟩ := Option.map_eq_some_iff.mp hcell
      cases side <;> exact h x₁ y₁ old hold
    · exact h x₁ y₁ cell hcell

end

/-! ### Drawing -/

section
variable {G : String → Prop} (hchar : ∀ d, P d → G d.toString) (hblank : P ' ')
include hchar

theorem allGlyphs_drawGlyph {d : Char} (hd : P d) (x y : Int) :
    Triple (AllGlyphs G) (drawGlyph x y d) fun _ => AllGlyphs G :=
  Triple.drawGlyph fun _ hc _ => hc.put (hchar d hd)

theorem allGlyphs_drawTrail {d : Char} (hd : P d) (cells : List Place) :
    Triple (AllGlyphs G) (drawTrail d cells) fun _ => AllGlyphs G :=
  triple_drawTrail (fun _ _ _ _ _ hc => hc.mark) fun p _ => allGlyphs_drawGlyph hchar hd p.1 p.2

include hblank

theorem allGlyphs_write [Text.Measure] {text : String} (htext : ∀ d ∈ text.toList, P d)
    (x y : Int) :
    Triple (AllGlyphs G) (write x y text) fun _ => AllGlyphs G := by
  have hwrite : Triple (AllGlyphs G) (write x y text) fun stop c =>
      stop = x + Text.displayWidth text ∧ AllGlyphs G c := by
    refine Triple.write (P := fun _ => AllGlyphs G) (G := G) (hchar ' ' hblank) ?_
      (fun d hd => hchar d (htext d hd)) x (Int.le_refl _)
    intro x glyph width _ hglyph
    exact Triple.put fun c hc _ => hc.put hglyph
  exact hwrite.mono fun _ _ hc => hc.2

theorem allGlyphs_drawLabelled [Text.Measure] (hellipsis : P Text.ellipsis) {g : BoxGlyphs}
    (hg : ∀ d ∈ g.toList, P d) {b : Box} (hb : b.Roomy) {text : String}
    (htext : ∀ d ∈ text.toList, P d) (tag : String) :
    Triple (AllGlyphs G) (drawLabelled g b text tag) fun _ => AllGlyphs G := by
  have hfitted : ∀ d ∈ (Text.fitText text b.innerWidth).toList, P d := by
    intro d hd
    rcases Text.mem_fitText hd with hmem | rfl
    · exact htext d hmem
    · exact hellipsis
  refine triple_drawLabelled (fun _ _ _ _ _ hc => hc.mark) hb (fun d hd x y _ => ?_)
    (allGlyphs_write hchar hblank hfitted _ _) tag
  exact allGlyphs_drawGlyph hchar (List.forall_mem_cons.mpr ⟨hblank, hg⟩ d hd) x y

end

end Canvas

/-! ### Sketches -/

/-- A drawing is made of some characters. -/
structure MadeOf (P : Char → Prop) (ascii : Bool) (shapes : List ShapeElement)
    (connectors : List ConnectorElement) : Prop where
  blank : P ' '
  ellipsis : P Text.ellipsis
  shapeGlyphs : ∀ e ∈ shapes, ∀ d ∈ (e.glyphs ascii).toList, P d
  shapeText : ∀ e ∈ shapes, ∀ d ∈ e.text.toList, P d
  connectorGlyphs : ∀ d ∈ (connectorGlyphs ascii).toList, P d
  connectorText : ∀ e ∈ connectors, ∀ text, e.text = some text → ∀ d ∈ text.toList, P d

/-- The glyphs of a canvas are of a form that the characters of the drawing have. -/
theorem MadeOf.invariant_allGlyphs [Text.Measure] {ascii : Bool} {shapes : List ShapeElement}
    {connectors : List ConnectorElement} (h : MadeOf P ascii shapes connectors) {G : String → Prop}
    (hchar : ∀ d, P d → G d.toString) :
    Sketch.Invariant ascii shapes connectors (Canvas.AllGlyphs G) where
  empty := Canvas.allGlyphs_empty (hchar ' ' h.blank)
  shape e he _ hroomy :=
    Canvas.allGlyphs_drawLabelled hchar h.blank h.ellipsis (h.shapeGlyphs e he) hroomy
      (h.shapeText e he) _
  trail cells :=
    Canvas.allGlyphs_drawTrail hchar (h.connectorGlyphs _ (by simp [BoxGlyphs.toList])) cells
  tip d hd x y := Canvas.allGlyphs_drawGlyph hchar (h.connectorGlyphs d hd) x y
  label e he text htext x y := by
    refine (Canvas.allGlyphs_write hchar h.blank ?_ x y).of_imp fun c hc => hc.1
    intro d hd
    rcases Text.mem_fitText hd with hmem | rfl
    · exact h.connectorText e he text htext d hmem
    · exact h.ellipsis

/-- The canvas of a drawing holds the characters that the drawing is made of. -/
theorem MadeOf.invariant_holds [Text.Measure] {ascii : Bool} {shapes : List ShapeElement}
    {connectors : List ConnectorElement} (h : MadeOf P ascii shapes connectors) :
    Sketch.Invariant ascii shapes connectors (Canvas.Holds P) :=
  h.invariant_allGlyphs (G := fun glyph => ∀ d ∈ glyph.toList, P d) fun d hd => by simpa using hd

theorem Sketch.invariant_char [Text.Measure] (ascii : Bool) (shapes : List ShapeElement)
    (connectors : List ConnectorElement) : Invariant ascii shapes connectors
      (Canvas.AllGlyphs fun glyph => ∃ d, glyph.toList = [d]) := by
  have hmade : MadeOf (fun _ => True) ascii shapes connectors := by
    constructor <;> simp
  exact hmade.invariant_allGlyphs fun d _ => ⟨d, by simp⟩

/-! ### Pictures -/

theorem of_mem_segmentsFrom {row : List Cell} (hrow : ∀ cell ∈ row, ∀ d ∈ cell.glyph.toList, P d)
    {run : List Char} (hrun : ∀ d ∈ run, P d) :
    ∀ seg ∈ segmentsFrom run row, ∀ d ∈ seg.glyphs, P d := by
  induction row generalizing run with
  | nil =>
      intro seg hseg d hd
      obtain rfl := List.mem_singleton.mp hseg
      exact hrun d ((List.rdropWhile_prefix _ _).mem hd)
  | cons cell row ih =>
      obtain ⟨hcell, hrow⟩ := List.forall_mem_cons.mp hrow
      have hnext : ∀ d ∈ run ++ cell.glyph.toList, P d :=
        List.forall_mem_append.mpr ⟨hrun, hcell⟩
      unfold segmentsFrom
      split
      · exact ih hrow hrun
      · split
        · intro seg hseg d hd
          rw [List.cons_append, List.mem_cons, List.mem_append] at hseg
          rcases hseg with rfl | hseg | hseg
          · exact hrun d hd
          · apply hcell
            rw [← cell.flatMap_glyphs_segments]
            exact List.mem_flatMap.mpr ⟨seg, hseg, hd⟩
          · exact ih hrow (by simp) seg hseg d hd
        · exact ih hrow hnext

/-- The runs of a picture are made of the characters of the canvas and line feeds. -/
theorem Canvas.Holds.of_mem_segments {c : Canvas} (h : c.Holds P) (hfeed : P '\n') :
    ∀ seg ∈ c.segments, ∀ d ∈ seg.glyphs, P d := by
  intro seg hseg
  rcases mem_or_exists_of_mem_intercalate hseg with hsep | ⟨part, hpart, hmem⟩
  · obtain rfl := List.mem_singleton.mp hsep
    simpa [Segment.glyphs] using hfeed
  · obtain ⟨row, hrow, rfl⟩ := List.mem_map.mp hpart
    obtain ⟨y, hcell⟩ := exists_of_mem_cells (mem_of_mem_shownRows hrow)
    refine of_mem_segmentsFrom (fun cell hmem => ?_) (by simp) seg hmem
    obtain ⟨x, hx⟩ := List.mem_iff_getElem?.mp hmem
    exact h x y cell ((hcell x).trans hx)

/-! ### Plain characters -/

namespace Markup

/-- A character that opens no group and escapes nothing. -/
def IsPlain (d : Char) : Prop := d ≠ '[' ∧ d ≠ Text.backslash

theorem Legible.of_plain {run : List Char} (h : ∀ d ∈ run, IsPlain d) (rest : List Char) :
    Legible run rest where
  unescaped := by
    have hbracket : ∀ p ∈ pieces run, p ≠ .char '[' := by
      rintro p hp rfl
      refine (h '[' ?_).1 rfl
      rw [← flatMap_text_pieces run]
      exact List.mem_flatMap.mpr ⟨_, hp, List.mem_singleton.mpr rfl⟩
    have hpairs : (pieces run).Pairwise fun p q => ¬ (p = .char Text.backslash ∧ q = .char '[') :=
      List.pairwise_of_forall_mem_list fun p _ q hq hpq => hbracket q hq hpq.2
    exact hpairs.isChain
  keepsOpen := by
    intro back hback
    exact absurd rfl (h '[' (hback.mem List.mem_cons_self)).1
  last hlast := absurd rfl (h _ (List.mem_of_getLast? hlast)).2

end Markup

theorem legibleSegments_of_plain {segs : List Segment}
    (h : ∀ seg ∈ segs, ∀ d ∈ seg.glyphs, Markup.IsPlain d) : LegibleSegments segs := by
  induction segs with
  | nil => exact trivial
  | cons seg segs ih =>
      obtain ⟨hseg, hsegs⟩ := List.forall_mem_cons.mp h
      cases seg with
      | run run => exact ⟨.of_plain hseg _, ih hsegs⟩
      | tag tag => exact ih hsegs

end Flowchart
