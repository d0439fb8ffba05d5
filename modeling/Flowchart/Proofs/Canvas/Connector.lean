import Flowchart.Proofs.Canvas.Line
import Flowchart.Proofs.Canvas.Retained

/-! # What a connector draws

A connector changes its stretch and, if its label is written, the cells of the label, and nothing
else (`Sketch.Connected`): behind it the cells of the stretch show the glyph of the trail, the last
one the tip, and the label stands beside the middle.  Whether the label is written can be told in
front of the connector: its cells are free there, and the stretch does not run through them
(`Sketch.WritesLabel`).

`Sketch.connected_of_addLine` is the step; a preview takes it with one connector after the other
(`exists_steps_of_preview`). -/

namespace Flowchart

theorem walk_lineCells (start stop : Place) : (LineCourse.between start stop).Walk start
    ((LineCourse.between start stop).dx + (LineCourse.between start stop).dy)
    (lineCells start stop) :=
  (LineCourse.from_between start stop).reached_start.walk_cellsFrom
    (LineCourse.from_between start stop) (Nat.zero_add _)

theorem nodup_lineCells (start stop : Place) : (lineCells start stop).Nodup :=
  (walk_lineCells start stop).nodup (LineCourse.from_between start stop)
    (LineCourse.from_between start stop).reached_start (Nat.zero_le _)

theorem mem_iff_mem_dropLast_or_getLast? {α : Type} {l : List α} {a : α} :
    a ∈ l ↔ a ∈ l.dropLast ∨ a ∈ l.getLast? := by
  rcases List.eq_nil_or_concat l with rfl | ⟨front, last, rfl⟩
  · simp
  · simp [eq_comm]

namespace Canvas

theorem triple_face?_drawTrail (d : Char) (cells : List Place) (x y : Int) :
    Triple (fun c => c.face? x y = some (d.toString, 1)) (drawTrail d cells)
      fun _ c => c.face? x y = some (d.toString, 1) := by
  refine triple_drawTrail (fun c x' y' tag side hc => (face?_mark c x' y' tag side x y).trans hc)
    fun p _ => Triple.drawGlyph fun c hc hin => ?_
  by_cases hp : p.1 = x ∧ p.2 = y
  · obtain ⟨rfl, rfl⟩ := hp
    exact face?_put hin
  · exact (face?_put_of_ne hp).trans hc

theorem face?_drawTrail (d : Char) (cells : List Place) :
    Triple (fun _ => True) (drawTrail d cells)
      fun _ c => ∀ p ∈ cells, c.face? p.1 p.2 = some (d.toString, 1) := by
  induction cells with
  | nil => exact fun _ _ _ _ _ => List.forall_mem_nil _
  | cons q cells ih =>
      have hfirst : Triple (fun _ => True) (do
          drawGlyph q.1 q.2 d
          modify fun c => (c.mark q.1 q.2 trailTag .before).mark q.1 q.2 closingTag .after)
          fun _ c => c.face? q.1 q.2 = some (d.toString, 1) := by
        refine Triple.bind (Q := fun _ c => c.face? q.1 q.2 = some (d.toString, 1))
          (Triple.drawGlyph fun c _ hin => face?_put hin) fun _ => ?_
        refine Triple.of_modify fun c hc => ?_
        rwa [face?_mark, face?_mark]
      refine Triple.bind hfirst fun _ => ?_
      have hrest := (triple_face?_drawTrail d cells q.1 q.2).and ih
      refine (hrest.of_imp fun c hc => ⟨hc, trivial⟩).mono fun _ c hc => ?_
      exact List.forall_mem_cons.mpr hc

end Canvas

namespace Sketch

open Canvas (Triple SameOn)

variable {s s' tip : Sketch} {ascii : Bool} {o : Origin} {start stop p : Place} {text : String}

/-- The cells on which a connector is drawn, its tip on the last one. -/
abbrev stretch (s : Sketch) (start stop : Place) : List Place :=
  s.freeStretch (lineCells start stop)

theorem nodup_stretch (s : Sketch) (start stop : Place) : (s.stretch start stop).Nodup :=
  (nodup_lineCells start stop).sublist
    ((List.takeWhile_sublist _).trans (List.dropWhile_sublist _))

/-- The label of a connector is written: there is one, and all of its cells are free and not taken
by the connector itself. -/
structure WritesLabel [Text.Measure] (s : Sketch) (start stop : Place) (text : String) : Prop where
  named : text ≠ ""
  drawn : s.stretch start stop ≠ []
  free : ∀ p ∈ labelCells text (s.stretch start stop), s.isFree p = true ∧
    p ∉ s.stretch start stop

theorem writesLabel_iff [Text.Measure] : s.WritesLabel start stop text ↔
    text ≠ "" ∧ s.stretch start stop ≠ [] ∧
      ∀ p ∈ labelCells text (s.stretch start stop), s.isFree p = true ∧ p ∉ s.stretch start stop :=
  ⟨fun h => ⟨h.named, h.drawn, h.free⟩, fun h => ⟨h.1, h.2.1, h.2.2⟩⟩

instance [Text.Measure] (s : Sketch) (start stop : Place) (text : String) :
    Decidable (s.WritesLabel start stop text) :=
  decidable_of_iff' _ writesLabel_iff

/-- What a connector leaves of a sketch. -/
structure Connected [Text.Measure] (ascii : Bool) (start stop : Place) (text : String)
    (s s' : Sketch) : Prop where
  boxes : s'.boxes = s.boxes
  trail : ∀ p ∈ (s.stretch start stop).dropLast,
    s'.canvas.face? p.1 p.2 = some ((connectorGlyphs ascii).trail.toString, 1)
  tip : ∀ p ∈ (s.stretch start stop).getLast?, s'.canvas.face? p.1 p.2 =
    some (((connectorGlyphs ascii).tip (stop.1 - start.1) (stop.2 - start.2)).toString, 1)
  label : s.WritesLabel start stop text →
    s'.canvas.Shows (labelPlace (s.stretch start stop)).1 (labelPlace (s.stretch start stop)).2
      (faces (Text.fitText text labelLimit).toList)
  same : SameOn (fun p => p ∉ s.stretch start stop ∧
    ¬ (s.WritesLabel start stop text ∧ p ∈ labelCells text (s.stretch start stop)))
      s.canvas s'.canvas

theorem ne_blank_of_mem_connectorGlyphs {d : Char} (hd : d ∈ (connectorGlyphs ascii).toList) :
    (d.toString, 1) ≠ (" ", 1) := by
  have hinked := inked_connectorGlyphs ascii d hd
  intro heq
  obtain rfl : d = ' ' := by simpa using congrArg (fun face => face.1.toList) heq
  exact absurd hinked (by decide)

theorem Connected.isBlank_eq_false [Text.Measure] (h : Connected ascii start stop text s s')
    (hp : p ∈ s.stretch start stop) : s'.canvas.isBlank p.1 p.2 = false := by
  have htrail : (connectorGlyphs ascii).trail ∈ (connectorGlyphs ascii).toList := by
    simp [BoxGlyphs.toList]
  rcases mem_iff_mem_dropLast_or_getLast?.mp hp with hp | hp
  · exact Canvas.isBlank_eq_false_of_face? (h.trail p hp) (ne_blank_of_mem_connectorGlyphs htrail)
  · exact Canvas.isBlank_eq_false_of_face? (h.tip p hp)
      (ne_blank_of_mem_connectorGlyphs (BoxGlyphs.tip_mem_toList (connectorGlyphs ascii) _ _))

theorem connected_of_perform [Text.Measure] {x y : Int} {trail : Sketch}
    (hlast : (s.stretch start stop).getLast? = some (x, y))
    (htrail : s.perform (Canvas.drawTrail (connectorGlyphs ascii).trail
      (s.stretch start stop).dropLast) = .ok trail)
    (htip : trail.perform (Canvas.drawGlyph x y
      ((connectorGlyphs ascii).tip (stop.1 - start.1) (stop.2 - start.2))) = .ok tip) :
    Connected ascii start stop "" s tip := by
  have hends : (x, y) ∉ (s.stretch start stop).dropLast := by
    have hnodup := nodup_stretch s start stop
    rw [← List.dropLast_append_getLast? _ hlast, List.nodup_append] at hnodup
    exact fun hmem => hnodup.2.2 _ hmem _ (List.mem_singleton_self _) rfl
  have hcells := of_perform (Canvas.face?_drawTrail _ _) trivial htrail
  refine ⟨(boxes_of_perform htip).trans (boxes_of_perform htrail), ?_, ?_, ?_, ?_⟩
  · have hkept : SameOn (· ∈ (s.stretch start stop).dropLast) trail.canvas tip.canvas :=
      of_perform (Canvas.sameOn_drawGlyph hends _) (.refl _ _) htip
    exact fun p hp => (hkept p.1 p.2 hp).trans (hcells p hp)
  · intro p hp
    obtain rfl := Option.some.inj (hlast.symm.trans hp)
    exact of_perform (P := fun _ => True) (I := fun c => c.face? x y = _)
      (Triple.drawGlyph fun c _ hin => Canvas.face?_put hin) trivial htip
  · exact fun hwrites => absurd rfl hwrites.named
  · have hout : SameOn (· ∉ s.stretch start stop) s.canvas trail.canvas :=
      of_perform (Canvas.sameOn_drawTrail
        (fun p hp => not_not_intro (List.mem_of_mem_dropLast hp)) _) (.refl _ _) htrail
    have hout : SameOn (· ∉ s.stretch start stop) s.canvas tip.canvas :=
      of_perform (Canvas.sameOn_drawGlyph (not_not_intro (List.mem_of_getLast? hlast)) _) hout htip
    exact fun x y hin => hout x y hin.1

theorem Connected.isFree_iff [Text.Measure] (h : Connected ascii start stop "" s tip) :
    tip.isFree p = true ↔ s.isFree p = true ∧ p ∉ s.stretch start stop := by
  by_cases hp : p ∈ s.stretch start stop
  · have hfalse : tip.isFree p = false := isFree_eq_false_iff.mpr (.inr (h.isBlank_eq_false hp))
    simp [hp, hfalse]
  · have hface := h.same p.1 p.2 ⟨hp, fun hlabel => absurd rfl hlabel.1.named⟩
    simp only [isFree, h.boxes, Canvas.isBlank_eq_of_face?_eq hface, hp, not_false_eq_true,
      and_true]

theorem Connected.addLabel [Text.Measure] (h : Connected ascii start stop "" s tip)
    (hstretch : s.stretch start stop ≠ []) (htext : text ≠ "")
    (hadd : tip.addLabel text (s.stretch start stop) = .ok s') :
    Connected ascii start stop text s s' := by
  rcases cases_of_addLabel hadd with ⟨⟨p, hp, hfree⟩, rfl⟩ | ⟨hfree, hwrite⟩
  · have hnone : ¬ s.WritesLabel start stop text := by
      intro hwrites
      rw [h.isFree_iff.mpr (hwrites.free p hp)] at hfree
      cases hfree
    refine ⟨h.boxes, h.trail, h.tip, fun hwrites => absurd hwrites hnone, ?_⟩
    exact fun x y hin => h.same x y ⟨hin.1, fun hlabel => absurd rfl hlabel.1.named⟩
  · have hwrites : s.WritesLabel start stop text :=
      ⟨htext, hstretch, fun p hp => h.isFree_iff.mp (hfree p hp)⟩
    have hkept : SameOn (· ∉ labelCells text (s.stretch start stop)) tip.canvas s'.canvas := by
      refine of_perform (Triple.bind (Canvas.sameOn_write fun x hle hlt => ?_)
        fun _ => Triple.pure (Q := fun _ => SameOn _ tip.canvas) ()) (.refl _ _) hwrite
      exact not_not_intro (mem_labelCells.mpr ⟨rfl, hle, hlt⟩)
    have hout : ∀ p ∈ s.stretch start stop, s'.canvas.face? p.1 p.2 = tip.canvas.face? p.1 p.2 :=
      fun p hp => hkept p.1 p.2 fun hlabel => (hwrites.free p hlabel).2 hp
    refine ⟨(boxes_of_perform hwrite).trans h.boxes, ?_, ?_, fun _ => ?_, ?_⟩
    · exact fun p hp => (hout p (List.mem_of_mem_dropLast hp)).trans (h.trail p hp)
    · exact fun p hp => (hout p (List.mem_of_getLast? hp)).trans (h.tip p hp)
    · exact of_perform (Triple.bind (Canvas.shows_write _ _ _)
        fun _ => Triple.pure (Q := fun _ => Canvas.Shows _ _ _) ()) trivial hwrite
    · intro x y hin
      rw [hkept x y fun hlabel => hin.2 ⟨hwrites, hlabel⟩]
      exact h.same x y ⟨hin.1, fun hlabel => absurd rfl hlabel.1.named⟩

theorem connected_of_addLine [Text.Measure] (h : s.addLine ascii start stop text = .ok s') :
    Connected ascii start stop text s s' := by
  rcases cases_of_addLine h with ⟨hnone, rfl⟩ | ⟨x, y, trail, tip, hlast, htrail, htip, hlabel⟩
  · refine ⟨rfl, ?_, ?_, fun hwrites => absurd hnone hwrites.drawn, fun _ _ _ => rfl⟩
    · rw [stretch, hnone]
      exact List.forall_mem_nil _
    · rw [stretch, hnone]
      exact fun p hp => nomatch hp
  · have htip : Connected ascii start stop "" s tip := connected_of_perform hlast htrail htip
    have hne : s.stretch start stop ≠ [] := fun hnil => by
      rw [stretch] at hnil
      rw [hnil] at hlast
      cases hlast
    rcases hlabel with ⟨rfl, rfl⟩ | ⟨htext, hlabel⟩
    · exact htip
    · exact htip.addLabel hne htext hlabel

end Sketch

/-- The sketches through which a list of connectors leads, one connector after the other. -/
structure Sketch.Steps [Text.Measure] (ascii : Bool) (o : Origin)
    (connectors : List ConnectorElement) (sketch : Nat → Sketch) : Prop where
  retains : ∀ m n, m ≤ n → (sketch m).Retains (sketch n)
  line : ∀ n e, connectors[n]? = some e → ∃ start stop, e.ends o = .ok (start, stop) ∧
    (sketch n).addLine ascii start stop (e.text.getD "") = .ok (sketch (n + 1))
  rest : ∀ n, connectors[n]? = none → sketch (n + 1) = sketch n

theorem Sketch.Steps.addLine [Text.Measure] {ascii : Bool} {o : Origin}
    {connectors : List ConnectorElement} {sketch : Nat → Sketch}
    (h : Steps ascii o connectors sketch) {n : Nat} {e : ConnectorElement} {start stop : Place}
    (hn : connectors[n]? = some e) (hends : e.ends o = .ok (start, stop)) :
    (sketch n).addLine ascii start stop (e.text.getD "") = .ok (sketch (n + 1)) := by
  obtain ⟨start', stop', hends', hadd⟩ := h.line n e hn
  obtain ⟨rfl, rfl⟩ := Prod.mk.inj (Except.ok.inj (hends.symm.trans hends'))
  exact hadd

/-- The sketches behind a preview, from the one of the shapes to the one that is shown. -/
theorem exists_steps_of_preview [Text.Measure] {elements : List Element} {style shown : String}
    {marked : Bool} {first : ShapeElement} {others : List ShapeElement}
    (hshapes : elements.filterMap Element.shape? = first :: others)
    (h : preview elements style marked = .ok shown) :
    ∃ sketch : Nat → Sketch,
      (∀ n, sketchOf (BoxGlyphs.isAsciiName style) first others
        ((elements.filterMap Element.connector?).take n) = .ok (sketch n)) ∧
      (sketch (elements.filterMap Element.connector?).length).canvas.picture marked = shown ∧
      Sketch.Steps (BoxGlyphs.isAsciiName style) (originOf first others)
        (elements.filterMap Element.connector?) sketch := by
  obtain ⟨sketch, hsketch, hpicture, hretains⟩ := exists_sketches_of_preview hshapes h
  refine ⟨sketch, hsketch, hpicture, hretains, fun n e hn => ?_, fun n hn => ?_⟩
  · exact Sketch.exists_of_addConnector
      (Sketch.addConnector_of_sketchOf_take hn (hsketch n) (hsketch (n + 1)))
  · have hlater := hsketch (n + 1)
    rw [List.take_add_one, hn, Option.toList_none, List.append_nil, hsketch n] at hlater
    exact (Except.ok.inj hlater).symm

end Flowchart
