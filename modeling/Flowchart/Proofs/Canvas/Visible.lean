import Flowchart.Proofs.Canvas.Labels
import Flowchart.Proofs.Canvas.Room
import Flowchart.Proofs.Diagram.Labels

/-! # Visible labels

Nodes that are placed are apart from each other, so their boxes have no cells in common if they are
not too small (`Node.pairwise_disjoint_boxIn`), and every box displays its label.  Labels hold no
line breaks, so the lines of a preview are the rows of its canvas.  Together this says that a
preview of integers shows the label of every node (`labelIn_of_preview`). -/

namespace Flowchart

variable {s : Settings} {positions : Positions} {nodes : List Node} {shapes : List ShapeElement}

/-- The boxes of nodes that are apart have no cells in common. -/
theorem Node.pairwise_disjoint_boxIn (hnodup : (nodes.map Node.id).Nodup)
    (hshapes : List.Forall₂ (Node.Draws s positions) nodes shapes)
    (hplaced : ∀ node ∈ nodes, (positions.of? node.id).isSome)
    (hapart : ∀ id id' p p', id ≠ id' → positions.of? id = some p → positions.of? id' = some p' →
      (s.frame p).Apart (s.frame p'))
    (hwide : 40 ≤ s.nodeWidth.value) (hhigh : 60 ≤ s.nodeHeight.value) (hull : Frame) :
    (shapes.map fun a => hull.boxIn a.frame).Pairwise Box.Disjoint := by
  have hcorner : ∀ a ∈ shapes, ∃ p, positions.of? a.id = some p ∧ a.frame = s.frame p := by
    intro a ha
    obtain ⟨node, hnode, hdraws⟩ := exists_mem_of_forall₂ hshapes.flip ha
    obtain ⟨p, hp⟩ := Option.isSome_iff_exists.mp (hplaced node hnode)
    exact ⟨p, hdraws.id ▸ hp, hdraws.frame_eq hp⟩
  have hids : (shapes.map ShapeElement.id).Nodup := by
    rwa [← map_eq_map_of_forall₂ hshapes fun node a hdraws => hdraws.id.symm]
  have hright : ∀ p, (s.frame p).left + 40 ≤ (s.frame p).right :=
    fun p => (add_le_add_iff_left _).mpr hwide
  have hbottom : ∀ p, (s.frame p).top + 60 ≤ (s.frame p).bottom :=
    fun p => (add_le_add_iff_left _).mpr hhigh
  refine List.pairwise_map.mpr ((List.pairwise_map.mp hids).imp_of_mem fun ha ha' hne => ?_)
  obtain ⟨p, hp, hframe⟩ := hcorner _ ha
  obtain ⟨p', hp', hframe'⟩ := hcorner _ ha'
  rw [hframe, hframe']
  refine (hapart _ _ p p' hne hp hp').disjoint_boxIn (hright p) (hbottom p) (hright p') ?_
  exact hbottom p'

/-- A drawing of labels without line breaks is made of characters that end no line. -/
theorem madeOf_unbroken {arrows : List ConnectorElement}
    (hshapes : ∀ a ∈ shapes, Text.Unbroken a.text.toList)
    (harrows : ∀ c ∈ arrows, ∀ text, c.text = some text → Text.Unbroken text.toList)
    (ascii : Bool) : MadeOf (fun d => Text.isLineBreak d = false) ascii shapes arrows where
  blank := by decide
  ellipsis := by decide
  shapeGlyphs a _ d hd := Text.isLineBreak_of_isBlank (a.inked_glyphs ascii d hd)
  shapeText := hshapes
  connectorGlyphs d hd := Text.isLineBreak_of_isBlank (inked_connectorGlyphs ascii d hd)
  connectorText := harrows

/-- If the boxes of exact shapes have no cells in common and fit on the canvas, the preview shows
the text of every shape in its box. -/
theorem Frame.Bounds.exists_preview_labelIn [Text.Measure] {k : Nat} {first : ShapeElement}
    {others : List ShapeElement} {hull : Frame} (hb : hull.Bounds k first others)
    {arrows : List ConnectorElement} (hlinks : ∀ c ∈ arrows, c.Links (first :: others))
    {style : String} (hmade : MadeOf (fun d => Text.isLineBreak d = false)
      (BoxGlyphs.isAsciiName style) (first :: others) arrows)
    (hdisjoint : ((first :: others).map fun a => hull.boxIn a.frame).Pairwise Box.Disjoint)
    (hroom : ∀ a ∈ first :: others,
      cellAt 10 (a.frame.left - hull.left) < cellAt 10 (hull.right - hull.left)) :
    ∃ boxes shown, List.Forall₂ (fun a b => a.box (originOf first others) = .ok b)
        (first :: others) boxes ∧ boxes.Pairwise Box.Disjoint ∧
      preview ((first :: others).map .shape ++ arrows.map .connector) style false = .ok shown ∧
      List.Forall₂ (fun a b => b.LabelIn shown a.text) (first :: others) boxes := by
  have hboxes : List.Forall₂ (fun a b => a.box (originOf first others) = .ok b)
      (first :: others) ((first :: others).map fun a => hull.boxIn a.frame) :=
    List.forall₂_map_right_iff.mpr (List.forall₂_same.mpr fun a ha => hb.box_eq ha)
  obtain ⟨sketch, hsketch⟩ :=
    (hb.exists_sketchOf_iff hlinks (BoxGlyphs.isAsciiName style)).mpr hroom
  obtain ⟨hlabels, hsame⟩ := Sketch.labels_of_sketchOf hboxes hdisjoint hsketch
  have hholds := hmade.invariant_holds.of_sketchOf hsketch
  refine ⟨_, sketch.canvas.picture false, hboxes, hdisjoint, ?_, ?_⟩
  · refine (preview_eq_ok_iff Element.filterMap_shape?_drawing).mpr ⟨sketch, ?_, rfl⟩
    rwa [Element.filterMap_connector?_drawing]
  · rw [← hsame]
    exact hlabels.displays.imp fun a b hbox => hbox.2.labelIn hbox.1 hholds

/-- **Every label is visible.**  Let all nodes of a text be reachable, and let the settings be valid
integers, with nodes four columns wide and three rows high at least and a drawing that is small
enough for exact coordinates.  Then the text is converted and its preview is made; the boxes of the
shapes have no cells in common; and the label of every node, fitted to its box, is part of the line
in the middle of the box, whatever connectors are drawn.  A label that fits its box stands there
itself. -/
theorem labelIn_of_preview [Text.Measure] {σ : Type} (g : Generator σ) (state : σ) {text : String}
    {d : Diagram} (htext : Diagram.ofText text = .ok d)
    (hreach : ∀ node ∈ d.nodes, d.Reaches node.id) (hvalid : s.fault? = none)
    (hintegral : ∀ field, ∃ m : Int, s.get field = .int m) (hwide : 40 ≤ s.nodeWidth.value)
    (hhigh : 60 ≤ s.nodeHeight.value)
    (hsmall : s.extent (d.nodes.length + d.edges.length + 1) < 2 ^ 51) (style : String) :
    ∃ elements state' first others boxes shown,
      convert text s g state = .ok (elements, state') ∧
      elements.filterMap Element.shape? = first :: others ∧
      List.Forall₂ Node.Shows d.nodes (first :: others) ∧
      List.Forall₂ (fun a b => a.box (originOf first others) = .ok b) (first :: others) boxes ∧
      boxes.Pairwise Box.Disjoint ∧
      preview elements style false = .ok shown ∧
      List.Forall₂ (fun node b => b.LabelIn shown node.label) d.nodes boxes := by
  have hexact := Settings.exact_of_integral hintegral (by linarith)
  have hproper := Settings.proper_of_fault?_eq_none hvalid hexact.finite
  have hdraws : s.Draws 0 (d.nodes.length + d.edges.length + 1) _ :=
    ⟨by decide, hexact.finite, hexact.whole, hproper, le_refl _, by simpa using hsmall⟩
  obtain ⟨elements, state', hconvert⟩ := exists_convert g state htext hdraws (by omega)
  -- No node stands at the fallback point, whose coordinates nothing bounds.
  obtain ⟨positions, shapes, arrows, hpositions, rfl, hshapes, hexactShapes, hlinks, htexts⟩ :=
    exists_exact_of_convert htext hconvert hdraws (by omega)
      fun node hnode hnot => absurd (hreach node hnode) hnot
  obtain ⟨positions', hpositions', -, hapart⟩ :=
    Diagram.exists_apart_positions (d := d) hexact hproper (by omega)
  obtain rfl := Except.ok.inj (hpositions'.symm.trans hpositions)
  have hshows : List.Forall₂ Node.Shows d.nodes shapes :=
    hshapes.imp fun node a hdraws => ⟨hdraws.id, hdraws.text⟩
  obtain ⟨hnodes, hedges⟩ := Diagram.unbroken_label_of_ofText htext
  have hmade : MadeOf (fun d => Text.isLineBreak d = false) (BoxGlyphs.isAsciiName style) shapes
      arrows := by
    refine madeOf_unbroken (fun a ha => ?_) (fun c hc text htext => ?_) _
    · obtain ⟨node, hnode, hshown⟩ := exists_mem_of_forall₂ hshows.flip ha
      rw [hshown.text]
      exact hnodes node hnode
    · obtain ⟨e, he, hlabel⟩ := htexts c hc text htext
      exact hedges e he text hlabel
  have hdisjoint := Node.pairwise_disjoint_boxIn (Diagram.closed_of_ofText htext).nodup hshapes
    (fun node hnode => (Diagram.isSome_of?_iff_reaches hpositions _).mpr (hreach node hnode)) hapart
    hwide hhigh
  cases shapes with
  | nil =>
      have hnone := List.forall₂_nil_right_iff.mp hshapes
      exact absurd hnone (Diagram.nodes_ne_nil_of_ofText htext)
  | cons first others =>
      obtain ⟨hull, hb⟩ := Frame.exists_bounds hexactShapes
      obtain ⟨boxes, shown, hboxes, hapartBoxes, hshown, hlines⟩ :=
        hb.exists_preview_labelIn hlinks hmade (hdisjoint hull) fun a ha => by
          obtain ⟨node, -, hdraws⟩ := exists_mem_of_forall₂ hshapes.flip ha
          exact hb.lt_of_wide ha (by rw [hdraws.width]; linarith)
      exact ⟨_, state', first, others, boxes, shown, hconvert, Element.filterMap_shape?_drawing,
        hshows, hboxes, hapartBoxes, hshown,
        forall₂_trans (fun node a b hshown hline => hshown.text ▸ hline) hshows hlines⟩

/-- Settings of the least sizes for which labels are visible. -/
def smallSettings : Settings where
  nodeWidth := 40
  nodeHeight := 60
  levelHeight := 140
  horizontalGap := 0
  canvasWidth := 1
  topMargin := 0
  minMargin := 0
  fallbackX := 0
  fallbackY := 0

/-- A text with labels that are too long, one of them of wide characters, a label that fits, and
labels on edges. -/
def decision : String :=
  "graph TD\nA[Start] --> B\x7b漢字\x7d\nB -->|yes| C((Go on))\nB -->|no| D\nD --> A"

/-- Its preview in boxes of these sizes. -/
def decisionPicture : String :=
  "\n".intercalate ["", " +--+", " |S…|", " +--+", "   .", "   .", "   .", "   v", " +--+", " |… |",
    " +--+", "   ..", "   . vno", "   .yes", "   v  ^", " +--++--+", " |G…||D |", " +--++--+"]

theorem labelIn_of_preview_decision : smallSettings.fault? = none ∧
    (∀ field, ∃ m : Int, smallSettings.get field = .int m) ∧
    40 ≤ smallSettings.nodeWidth.value ∧ 60 ≤ smallSettings.nodeHeight.value ∧
    ∃ d elements state' first others boxes shown, Diagram.ofText decision = .ok d ∧
      (∀ node ∈ d.nodes, d.Reaches node.id) ∧
      smallSettings.extent (d.nodes.length + d.edges.length + 1) < 2 ^ 51 ∧
      convert decision smallSettings (.progression 7) 0 = .ok (elements, state') ∧
      elements.filterMap Element.shape? = first :: others ∧
      List.Forall₂ Node.Shows d.nodes (first :: others) ∧
      List.Forall₂ (fun a b => a.box (originOf first others) = .ok b) (first :: others) boxes ∧
      boxes.Pairwise Box.Disjoint ∧
      preview elements "ascii" false = .ok shown ∧
      List.Forall₂ (fun node b => b.LabelIn shown node.label) d.nodes boxes ∧
      shown = decisionPicture := by
  have hvalid : smallSettings.fault? = none := by decide +kernel
  have hintegral : ∀ field, ∃ m : Int, smallSettings.get field = .int m := by
    intro field
    cases field <;> exact ⟨_, rfl⟩
  have hwide : 40 ≤ smallSettings.nodeWidth.value := by decide +kernel
  have hhigh : 60 ≤ smallSettings.nodeHeight.value := by decide +kernel
  have hread : (fun d => decide ((∀ node ∈ d.nodes, d.Reaches node.id) ∧
      smallSettings.extent (d.nodes.length + d.edges.length + 1) < 2 ^ 51)) <$>
        Diagram.ofText decision = .ok true := by
    decide +kernel
  obtain ⟨d, htext, hd⟩ := exists_of_map_eq_ok hread
  obtain ⟨hreach, hsmall⟩ := of_decide_eq_true hd
  obtain ⟨elements, state', first, others, boxes, shown, h⟩ :=
    labelIn_of_preview (.progression 7) 0 htext hreach hvalid hintegral hwide hhigh hsmall "ascii"
  obtain ⟨hconvert, hshapes, hshows, hboxes, hapart, hshown, hlabels⟩ := h
  have hpicture : ((convert decision smallSettings (.progression 7) 0).toOption.bind
      fun result => (preview result.1 "ascii" false).toOption) = some decisionPicture := by
    decide +kernel
  rw [hconvert] at hpicture
  change (preview elements "ascii" false).toOption = _ at hpicture
  rw [hshown] at hpicture
  exact ⟨hvalid, hintegral, hwide, hhigh, d, elements, state', first, others, boxes, shown, htext,
    hreach, hsmall, hconvert, hshapes, hshows, hboxes, hapart, hshown, hlabels,
    Option.some.inj hpicture⟩

end Flowchart
