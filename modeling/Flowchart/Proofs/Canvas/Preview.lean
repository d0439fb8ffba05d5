import Flowchart.Proofs.Canvas.Backing
import Flowchart.Proofs.Canvas.Glyphs

/-! # What a marked preview shows

Both previews of some elements are pictures of one canvas (`preview_eq`), and this canvas is sound.
So the marked preview is read as the plain one wherever the escaped runs of the canvas are legible
(`untag_preview`).  They are in a plain drawing, where no label has an opening bracket or a
backslash and no diamond has slanted corners (`legibleSegments_of_canvasOf`).

They need not be.  A tag cuts the glyphs around it into runs that are escaped one by one: a bracket
group that the cut runs through is not escaped, and the backslash in the corner of a diamond is
doubled at the end of a row, where no tag takes it (`tidyLines_untag_preview_ne`). -/

namespace Flowchart

/-- The canvas that the previews of some elements show. -/
def canvasOf [Text.Measure] (elements : List Element) (style : String) :
    Except PreviewError Canvas :=
  match elements.filterMap Element.shape? with
  | [] => .ok (.empty 0 0)
  | first :: others => do
    let s ← sketchOf (BoxGlyphs.isAsciiName style) first others
      (elements.filterMap Element.connector?)
    return s.canvas

theorem preview_eq [Text.Measure] (elements : List Element) (style : String) (marked : Bool) :
    preview elements style marked =
      (fun c => c.picture marked) <$> canvasOf elements style := by
  unfold preview canvasOf
  cases elements.filterMap Element.shape? with
  | nil => cases marked <;> rfl
  | cons first others =>
      dsimp only
      cases sketchOf (BoxGlyphs.isAsciiName style) first others
        (elements.filterMap Element.connector?) <;> rfl

theorem preview_eq_ok_iff [Text.Measure] {elements : List Element} {style shown : String}
    {marked : Bool} {first : ShapeElement} {others : List ShapeElement}
    (hshapes : elements.filterMap Element.shape? = first :: others) :
    preview elements style marked = .ok shown ↔
      ∃ s, sketchOf (BoxGlyphs.isAsciiName style) first others
        (elements.filterMap Element.connector?) = .ok s ∧ s.canvas.picture marked = shown := by
  unfold preview
  rw [hshapes]
  constructor
  · intro hshown
    obtain ⟨s, hs, hpicture⟩ := exists_of_bind_eq_ok hshown
    exact ⟨s, hs, Except.ok.inj hpicture⟩
  · rintro ⟨s, hs, rfl⟩
    exact bind_eq_ok hs rfl

/-- What every step of a sketch keeps holds of the canvas of a preview. -/
theorem Sketch.Invariant.of_canvasOf [Text.Measure] {elements : List Element} {style : String}
    {I : Canvas → Prop} {c : Canvas}
    (h : Invariant (BoxGlyphs.isAsciiName style) (elements.filterMap Element.shape?)
      (elements.filterMap Element.connector?) I)
    (hdrawn : canvasOf elements style = .ok c) : I c := by
  unfold canvasOf at hdrawn
  split at hdrawn
  · obtain rfl := Except.ok.inj hdrawn
    exact h.empty 0 0
  · next first others hshapes =>
      rw [hshapes] at h
      obtain ⟨s, hs, hdrawn⟩ := exists_of_bind_eq_ok hdrawn
      obtain rfl := Except.ok.inj hdrawn
      exact h.of_sketchOf hs

theorem sound_of_canvasOf [Text.Measure] {elements : List Element} {style : String} {c : Canvas}
    (h : canvasOf elements style = .ok c) : c.Sound :=
  (Sketch.invariant_sound _ _ _).of_canvasOf h

/-! ### Plain drawings -/

instance (d : Char) : Decidable (Markup.IsPlain d) := inferInstanceAs (Decidable (_ ∧ _))

theorem BoxGlyphs.isPlain_of_mem {g : BoxGlyphs} (h : g ∈ [square, round, ascii]) :
    ∀ d ∈ g.toList, Markup.IsPlain d := by
  intro d hd
  exact of_decide_eq_true
    (of_mem_toList (p := fun d => decide (Markup.IsPlain d)) (by decide) h d hd)

theorem ShapeElement.isPlain_glyphs {e : ShapeElement} {ascii : Bool}
    (h : ascii = true ∨ e.kind ≠ .diamond) : ∀ d ∈ (e.glyphs ascii).toList, Markup.IsPlain d := by
  apply BoxGlyphs.isPlain_of_mem
  unfold glyphs
  split
  · simp
  · next hstyle =>
      rw [if_neg (h.resolve_left hstyle)]
      split <;> simp

theorem isPlain_connectorGlyphs (ascii : Bool) :
    ∀ d ∈ (connectorGlyphs ascii).toList, Markup.IsPlain d := by
  apply BoxGlyphs.isPlain_of_mem
  unfold connectorGlyphs
  split <;> simp

theorem Element.mem_filterMap_shape? {elements : List Element} {e : ShapeElement} :
    e ∈ elements.filterMap Element.shape? ↔ .shape e ∈ elements := by
  rw [List.mem_filterMap]
  constructor
  · rintro ⟨element, helement, heq⟩
    cases element with
    | shape e' =>
        obtain rfl := Option.some.inj heq
        exact helement
    | connector e' => cases heq
  · exact fun h => ⟨.shape e, h, rfl⟩

theorem Element.mem_filterMap_connector? {elements : List Element} {e : ConnectorElement} :
    e ∈ elements.filterMap Element.connector? ↔ .connector e ∈ elements := by
  rw [List.mem_filterMap]
  constructor
  · rintro ⟨element, helement, heq⟩
    cases element with
    | shape e' => cases heq
    | connector e' =>
        obtain rfl := Option.some.inj heq
        exact helement
  · exact fun h => ⟨.connector e, h, rfl⟩

/-- The drawing of some elements is made of the characters of its glyphs and of their texts. -/
theorem madeOf_elements {P : Char → Prop} {ascii : Bool} {elements : List Element} (hblank : P ' ')
    (hellipsis : P Text.ellipsis)
    (hshapes : ∀ e ∈ elements.filterMap Element.shape?, ∀ d ∈ (e.glyphs ascii).toList, P d)
    (hconnectors : ∀ d ∈ (connectorGlyphs ascii).toList, P d)
    (htexts : ∀ e ∈ elements, ∀ d ∈ e.text.toList, P d) :
    MadeOf P ascii (elements.filterMap Element.shape?)
      (elements.filterMap Element.connector?) where
  blank := hblank
  ellipsis := hellipsis
  shapeGlyphs := hshapes
  shapeText e he := htexts _ (Element.mem_filterMap_shape?.mp he)
  connectorGlyphs := hconnectors
  connectorText e he text htext := by
    have hchars := htexts _ (Element.mem_filterMap_connector?.mp he)
    rwa [Element.text, htext] at hchars

/-- No label has an opening bracket or a backslash, and no diamond is drawn with backslashes. -/
structure PlainDrawing (elements : List Element) (style : String) : Prop where
  texts : ∀ e ∈ elements, ∀ d ∈ e.text.toList, Markup.IsPlain d
  corners : BoxGlyphs.isAsciiName style = true ∨ ∀ e ∈ elements, e.kind ≠ .diamond

/-- All runs of a plain drawing are legible. -/
theorem legibleSegments_of_canvasOf [Text.Measure] {elements : List Element} {style : String}
    {c : Canvas} (hdrawn : canvasOf elements style = .ok c) (hplain : PlainDrawing elements style) :
    LegibleSegments c.segments := by
  have hmade : MadeOf Markup.IsPlain (BoxGlyphs.isAsciiName style)
      (elements.filterMap Element.shape?) (elements.filterMap Element.connector?) := by
    refine madeOf_elements (by decide) (by decide) (fun e he => ?_) (isPlain_connectorGlyphs _)
      hplain.texts
    refine ShapeElement.isPlain_glyphs (hplain.corners.imp_right fun hkind => ?_)
    exact hkind _ (Element.mem_filterMap_shape?.mp he)
  have hholds : c.Holds Markup.IsPlain := hmade.invariant_holds.of_canvasOf hdrawn
  exact legibleSegments_of_plain (hholds.of_mem_segments (by decide))

/-! ### Previews -/

/-- **A legible marked preview shows the plain one.**  Let the canvas of some elements be drawn, and
let no label have an opening bracket or a backslash and no diamond slanted corners, or let each run
of the canvas at least be legible in front of what is written after it.  Then both previews are
made, and reading the marked one without its tags gives the plain one, character for character; so
does the reader of marked texts wherever it accepts the tags. -/
theorem untag_preview [Text.Measure] {elements : List Element} {style : String} {c : Canvas}
    (hdrawn : canvasOf elements style = .ok c)
    (hlegible : PlainDrawing elements style ∨ LegibleSegments c.segments) :
    ∃ marked plain, preview elements style true = .ok marked ∧
      preview elements style false = .ok plain ∧
      Markup.untag marked.toList = plain.toList ∧
      ∀ shown, Markup.shownText marked = .ok shown → shown = plain := by
  have hpreview : ∀ marked, preview elements style marked = .ok (c.picture marked) := by
    intro marked
    rw [preview_eq, hdrawn]
    rfl
  have hsound := sound_of_canvasOf hdrawn
  have huntag := Canvas.untag_picture (fun row hrow => hsound.backed_of_mem_cells hrow)
    (fun row hrow => hsound.tagged_of_mem_cells hrow)
    (hlegible.elim (legibleSegments_of_canvasOf hdrawn) id)
  refine ⟨_, _, hpreview true, hpreview false, huntag, ?_⟩
  intro shown hshown
  exact String.toList_injective ((Markup.eq_untag_of_shownText hshown).trans huntag)

/-- A shape at a point, of the size that nodes have. -/
def plainShape (id : String) (kind : ElementKind) (x y : Number) (text : String) : Element :=
  .shape { id, kind, x, y, width := 120, height := 60, text, style := .standard, seed := 0,
           nonce := 0 }

/-- A diamond beside a box, and a box below it, with bracket groups and backslashes in labels. -/
def shelf : List Element :=
  [plainShape "a" .diamond 0 0 "a [b] c\\", plainShape "b" .rectangle 160 0 "x[1] y",
   plainShape "c" .ellipse 0 160 "see [/]!",
   .connector { id := "arrow-a-c", start := ⟨60, 30⟩, stop := ⟨60, 190⟩, text := some "e[#]f",
                style := .ofConnector, startArrowhead := none, endArrowhead := some "arrow",
                seed := 0, nonce := 0 }]

/-- A diamond is a plain drawing if it has the corners of a box. -/
theorem untag_preview_shelf :
    (∃ c marked plain, canvasOf shelf "unicode" = .ok c ∧ LegibleSegments c.segments ∧
      preview shelf "unicode" true = .ok marked ∧ preview shelf "unicode" false = .ok plain ∧
      Markup.untag marked.toList = plain.toList ∧
      ∀ shown, Markup.shownText marked = .ok shown → shown = plain) ∧
    PlainDrawing [plainShape "A" .diamond 0 0 "x]"] "ascii" ∧
    ∃ marked plain, preview [plainShape "A" .diamond 0 0 "x]"] "ascii" true = .ok marked ∧
      preview [plainShape "A" .diamond 0 0 "x]"] "ascii" false = .ok plain ∧
      Markup.untag marked.toList = plain.toList ∧
      ∀ shown, Markup.shownText marked = .ok shown → shown = plain := by
  have hdrawn : (fun c => decide (LegibleSegments c.segments)) <$> canvasOf shelf "unicode" =
      .ok true := by
    decide +kernel
  obtain ⟨c, hc, hlegible⟩ := exists_of_map_eq_ok hdrawn
  have hlegible := of_decide_eq_true hlegible
  obtain ⟨marked, plain, h⟩ := untag_preview hc (.inr hlegible)
  have hchars : ("x]".toList.all fun d => decide (Markup.IsPlain d)) = true := by decide
  have hplain : PlainDrawing [plainShape "A" .diamond 0 0 "x]"] "ascii" := by
    refine ⟨fun e he d hd => ?_, .inl (by decide)⟩
    obtain rfl := List.mem_singleton.mp he
    exact of_decide_eq_true (List.all_eq_true.mp hchars d hd)
  have hbox : (fun _ => ()) <$> canvasOf [plainShape "A" .diamond 0 0 "x]"] "ascii" = .ok () := by
    decide +kernel
  obtain ⟨_, hbox, -⟩ := exists_of_map_eq_ok hbox
  exact ⟨⟨c, marked, plain, hc, hlegible, h⟩, hplain, untag_preview hbox (.inl hplain)⟩

/-- The lines of a text, without the blanks at their ends and without the empty ones at the end. -/
def tidyLines (s : List Char) : List (List Char) :=
  dropEmptyLines ((s.splitOn '\n').map Text.trimEnd)

/-- Two drawings whose marked preview shows another text: a diamond, and a box whose label starts
with a bracket group. -/
theorem tidyLines_untag_preview_ne :
    (∃ marked plain, preview [plainShape "A" .diamond 0 0 "x"] "unicode" true = .ok marked ∧
      preview [plainShape "A" .diamond 0 0 "x"] "unicode" false = .ok plain ∧
      tidyLines (Markup.untag marked.toList) ≠ tidyLines plain.toList) ∧
    ∃ marked plain, preview [plainShape "A" .rectangle 0 0 "[b] now"] "ascii" true = .ok marked ∧
      preview [plainShape "A" .rectangle 0 0 "[b] now"] "ascii" false = .ok plain ∧
      tidyLines (Markup.untag marked.toList) ≠ tidyLines plain.toList := by
  refine ⟨⟨"\n /──────────\\\\\n │    [bold yellow]x[/]     │\n \\──────────/",
    "\n /──────────\\\n │    x     │\n \\──────────/", ?_, ?_, ?_⟩,
    "\n +----------+\n | [bold cyan][b] now[/]  |\n +----------+",
    "\n +----------+\n | [b] now  |\n +----------+", ?_, ?_, ?_⟩
  all_goals decide +kernel

end Flowchart
