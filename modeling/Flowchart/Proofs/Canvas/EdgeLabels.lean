import Flowchart.Proofs.Canvas.Connector

/-! # Labels of connectors

A label that was written shows its characters, and all later connectors leave them alone, blanks
apart: a blank of a label is a free cell like any other.  A connector puts something on its stretch
and on the characters of its own label, blanks apart (`Sketch.Inks`).  A free cell is free as long
as no connector does that (`Sketch.Steps.face?_eq_blank_iff`).

So a label stays as it was written exactly as long as no later connector runs through one of its
blanks, and for ever if it has none (`label_of_preview`).  A connector may run through one
(`label_of_preview_thereAndBack`). -/

namespace Flowchart

theorem mem_of_blank_mem_faces [Text.Measure] {chars : List Char} (h : (" ", 1) ∈ faces chars) :
    ' ' ∈ chars := by
  obtain ⟨d, hd, hface⟩ := List.mem_flatMap.mp h
  rcases List.mem_cons.mp hface with heq | hcovered
  · obtain rfl : d = ' ' := by
      simpa using congrArg (fun face : String × Nat => face.1.toList) heq.symm
    exact hd
  · exact absurd (List.eq_of_mem_replicate hcovered) (by decide)

namespace Sketch

variable [Text.Measure] {s s' : Sketch} {ascii : Bool} {o : Origin} {start stop p : Place}
  {text : String} {connectors : List ConnectorElement} {sketch : Nat → Sketch} {m n : Nat}

def labelFaces (text : String) : List (String × Nat) :=
  faces (Text.fitText text labelLimit).toList

/-- A connector puts something on a place: its trail, its tip or a part of its label that is not a
blank. -/
def Inks (s : Sketch) (start stop : Place) (text : String) (p : Place) : Prop :=
  p ∈ s.stretch start stop ∨ s.WritesLabel start stop text ∧ ∃ i face,
    p = ((labelPlace (s.stretch start stop)).1 + (i : Nat), (labelPlace (s.stretch start stop)).2) ∧
    (labelFaces text)[i]? = some face ∧ face ≠ (" ", 1)

theorem length_labelFaces (text : String) :
    (labelFaces text).length = Text.displayWidth (Text.fitText text labelLimit) := length_faces _

/-- The cells of a label, each with what the label shows there. -/
theorem exists_face_of_mem_labelCells {stretch : List Place} (hp : p ∈ labelCells text stretch) :
    ∃ i face, p = ((labelPlace stretch).1 + (i : Nat), (labelPlace stretch).2) ∧
      (labelFaces text)[i]? = some face := by
  obtain ⟨hrow, hle, hlt⟩ := mem_labelCells.mp hp
  rw [← length_labelFaces] at hlt
  have hi : (p.1 - (labelPlace stretch).1).toNat < (labelFaces text).length := by omega
  refine ⟨(p.1 - (labelPlace stretch).1).toNat, _, ?_, List.getElem?_eq_getElem hi⟩
  exact Prod.ext (by dsimp only; omega) hrow

namespace Connected

variable (h : Connected ascii start stop text s s')
include h

theorem face?_label (hwrites : s.WritesLabel start stop text) {i : Nat} {face : String × Nat}
    (hface : (labelFaces text)[i]? = some face) :
    s'.canvas.face? ((labelPlace (s.stretch start stop)).1 + i)
      (labelPlace (s.stretch start stop)).2 = some face :=
  (h.label hwrites i (List.getElem?_eq_some_iff.mp hface).1).trans hface

theorem isBlank_eq_false_of_inks (hp : s.Inks start stop text p) :
    s'.canvas.isBlank p.1 p.2 = false := by
  rcases hp with hp | ⟨hwrites, i, face, rfl, hface, hne⟩
  · exact h.isBlank_eq_false hp
  · exact Canvas.isBlank_eq_false_of_face? (h.face?_label hwrites hface) hne

theorem face?_eq_of_not_inks (hp : ¬ s.Inks start stop text p) :
    s'.canvas.face? p.1 p.2 = s.canvas.face? p.1 p.2 := by
  by_cases hlabel : s.WritesLabel start stop text ∧ p ∈ labelCells text (s.stretch start stop)
  -- On a blank of the label: it was one before.
  · obtain ⟨hwrites, hcell⟩ := hlabel
    have hfree := (Bool.and_eq_true_iff.mp (hwrites.free p hcell).1).1
    obtain ⟨i, face, rfl, hface⟩ := exists_face_of_mem_labelCells hcell
    have hblank : face = (" ", 1) := by
      by_contra hne
      exact hp (.inr ⟨hwrites, i, face, rfl, hface, hne⟩)
    rw [Canvas.isBlank_eq_true_iff.mp hfree, h.face?_label hwrites hface, hblank]
  · exact h.same p.1 p.2 ⟨fun hstretch => hp (.inl hstretch), hlabel⟩

end Connected

/-- The connector with a number puts something on a place. -/
def InksAt (o : Origin) (connectors : List ConnectorElement) (sketch : Nat → Sketch) (n : Nat)
    (p : Place) : Prop :=
  ∃ e start stop, connectors[n]? = some e ∧ e.ends o = .ok (start, stop) ∧
    (sketch n).Inks start stop (e.text.getD "") p

namespace Steps

variable (h : Steps ascii o connectors sketch)
include h

theorem face?_succ_of_not_inksAt (hp : ¬ InksAt o connectors sketch n p) :
    (sketch (n + 1)).canvas.face? p.1 p.2 = (sketch n).canvas.face? p.1 p.2 := by
  cases hn : connectors[n]? with
  | none => rw [h.rest n hn]
  | some e =>
      obtain ⟨start, stop, hends, hadd⟩ := h.line n e hn
      exact (connected_of_addLine hadd).face?_eq_of_not_inks
        fun hinks => hp ⟨e, start, stop, hn, hends, hinks⟩

theorem isBlank_succ_of_inksAt (hp : InksAt o connectors sketch n p) :
    (sketch (n + 1)).canvas.isBlank p.1 p.2 = false := by
  obtain ⟨e, start, stop, hn, hends, hinks⟩ := hp
  exact (connected_of_addLine (h.addLine hn hends)).isBlank_eq_false_of_inks hinks

theorem face?_eq_of_isBlank_eq_false (hle : m ≤ n)
    (hink : (sketch m).canvas.isBlank p.1 p.2 = false) :
    (sketch n).canvas.face? p.1 p.2 = (sketch m).canvas.face? p.1 p.2 :=
  (h.retains m n hle).same p.1 p.2 (isFree_eq_false_iff.mpr (.inr hink))

/-- A blank is left as long as no connector puts something there. -/
theorem face?_eq_blank_iff (hle : m ≤ n)
    (hblank : (sketch m).canvas.face? p.1 p.2 = some (" ", 1)) :
    (sketch n).canvas.face? p.1 p.2 = some (" ", 1) ↔
      ∀ k, m ≤ k → k < n → ¬ InksAt o connectors sketch k p := by
  constructor
  · intro hlater k _ hlt hinks
    have hink := h.isBlank_succ_of_inksAt hinks
    rw [h.face?_eq_of_isBlank_eq_false hlt hink, ← Canvas.isBlank_eq_true_iff, hink] at hlater
    cases hlater
  · intro hnone
    induction n, hle using Nat.le_induction with
    | base => exact hblank
    | succ n hle ih =>
        rw [h.face?_succ_of_not_inksAt (hnone n hle (Nat.lt_succ_self n))]
        exact ih fun k hk hlt => hnone k hk (by omega)

section
variable {e : ConnectorElement} {x y : Int} (hn : connectors[n]? = some e)
  (hends : e.ends o = .ok (start, stop))
  (hwrites : (sketch n).WritesLabel start stop (e.text.getD ""))
  (hplace : labelPlace ((sketch n).stretch start stop) = (x, y)) (hlt : n < m)
include hn hends hwrites hplace

theorem face?_label {i : Nat} {face : String × Nat}
    (hface : (labelFaces (e.text.getD ""))[i]? = some face) :
    (sketch (n + 1)).canvas.face? (x + i) y = some face := by
  have hshown := (connected_of_addLine (h.addLine hn hends)).face?_label hwrites hface
  rwa [hplace] at hshown

include hlt

theorem face?_label_of_ne_blank {i : Nat} {face : String × Nat}
    (hface : (labelFaces (e.text.getD ""))[i]? = some face) (hne : face ≠ (" ", 1)) :
    (sketch m).canvas.face? (x + i) y = some face := by
  have hshown := h.face?_label hn hends hwrites hplace hface
  have hink := Canvas.isBlank_eq_false_of_face? hshown hne
  exact (h.face?_eq_of_isBlank_eq_false (p := (x + i, y)) hlt hink).trans hshown

/-- A label stays as long as no connector puts something on one of its blanks. -/
theorem shows_label_iff :
    (sketch m).canvas.Shows x y (labelFaces (e.text.getD "")) ↔
      ∀ i, (labelFaces (e.text.getD ""))[i]? = some (" ", 1) → ∀ k, n < k → k < m →
        ¬ InksAt o connectors sketch k (x + (i : Nat), y) := by
  have hblank : ∀ {i : Nat}, (labelFaces (e.text.getD ""))[i]? = some (" ", 1) →
      ((sketch m).canvas.face? (x + i) y = some (" ", 1) ↔
        ∀ k, n < k → k < m → ¬ InksAt o connectors sketch k (x + (i : Nat), y)) :=
    fun hface => h.face?_eq_blank_iff (p := (x + _, y)) hlt
      (h.face?_label hn hends hwrites hplace hface)
  constructor
  · intro hshows i hface
    refine (hblank hface).mp ?_
    rw [hshows i (List.getElem?_eq_some_iff.mp hface).1, hface]
  · intro hnone i hi
    have hface := List.getElem?_eq_getElem hi
    rw [hface]
    by_cases hne : (labelFaces (e.text.getD ""))[i] = (" ", 1)
    · rw [hne] at hface ⊢
      exact (hblank hface).mpr (hnone i hface)
    · exact h.face?_label_of_ne_blank hn hends hwrites hplace hlt hface hne

end

end Steps

end Sketch

/-- **Labels of connectors.**  A label of a connector that is not written leaves nothing.  One that
is written shows its characters; from then on they stay, blanks apart.  The whole label stays up to
some later sketch exactly if none of the connectors in between puts something on one of its blanks,
so always if it has none. -/
theorem label_of_preview [Text.Measure] {elements : List Element} {style shown : String}
    {marked : Bool} {first : ShapeElement} {others : List ShapeElement}
    (hshapes : elements.filterMap Element.shape? = first :: others)
    (h : preview elements style marked = .ok shown) :
    ∃ sketch : Nat → Sketch,
      (∀ n, sketchOf (BoxGlyphs.isAsciiName style) first others
        ((elements.filterMap Element.connector?).take n) = .ok (sketch n)) ∧
      (sketch (elements.filterMap Element.connector?).length).canvas.picture marked = shown ∧
      ∀ n e start stop, (elements.filterMap Element.connector?)[n]? = some e →
        e.ends (originOf first others) = .ok (start, stop) →
        (¬ (sketch n).WritesLabel start stop (e.text.getD "") →
          ∀ p ∉ (sketch n).stretch start stop,
            (sketch (n + 1)).canvas.face? p.1 p.2 = (sketch n).canvas.face? p.1 p.2) ∧
        ((sketch n).WritesLabel start stop (e.text.getD "") →
          ∀ x y, Sketch.labelPlace ((sketch n).stretch start stop) = (x, y) → ∀ m, n < m →
            (∀ i face, (Sketch.labelFaces (e.text.getD ""))[i]? = some face →
              face ≠ (" ", 1) → (sketch m).canvas.face? (x + (i : Nat)) y = some face) ∧
            ((sketch m).canvas.Shows x y (Sketch.labelFaces (e.text.getD "")) ↔
              ∀ i, (Sketch.labelFaces (e.text.getD ""))[i]? = some (" ", 1) →
                ∀ k, n < k → k < m → ¬ Sketch.InksAt (originOf first others)
                  (elements.filterMap Element.connector?) sketch k (x + (i : Nat), y)) ∧
            (' ' ∉ (Text.fitText (e.text.getD "") labelLimit).toList →
              (sketch m).canvas.Shows x y (Sketch.labelFaces (e.text.getD "")))) := by
  obtain ⟨sketch, hsketch, hpicture, hsteps⟩ := exists_steps_of_preview hshapes h
  refine ⟨sketch, hsketch, hpicture, fun n e start stop hn hends => ⟨fun hnone p hp => ?_, ?_⟩⟩
  · exact (Sketch.connected_of_addLine (hsteps.addLine hn hends)).same p.1 p.2
      ⟨hp, fun hlabel => hnone hlabel.1⟩
  · intro hwrites x y hplace m hm
    have hiff := hsteps.shows_label_iff hn hends hwrites hplace hm
    refine ⟨fun i face => hsteps.face?_label_of_ne_blank hn hends hwrites hplace hm, hiff,
      fun hnone => hiff.mpr fun i hface => ?_⟩
    exact absurd (mem_of_blank_mem_faces (List.mem_of_getElem? hface)) hnone

theorem label_of_preview_crossing :
    ∃ shown first others e e' s s', preview crossing "unicode" false = .ok shown ∧
      crossing.filterMap Element.shape? = first :: others ∧
      crossing.filterMap Element.connector? = [e, e'] ∧
      e.ends (originOf first others) = .ok ((7, 2), (7, 10)) ∧
      sketchOf false first others [] = .ok s ∧ s.WritesLabel (7, 2) (7, 10) (e.text.getD "") ∧
      sketchOf false first others [e, e'] = .ok s' ∧ s'.canvas.picture false = shown ∧
      s'.canvas.Shows 8 6 (Sketch.labelFaces (e.text.getD "")) := by
  have hdrawn : (fun _ => ()) <$> preview crossing "unicode" false = .ok () := by decide +kernel
  obtain ⟨shown, hshown, -⟩ := exists_of_map_eq_ok hdrawn
  obtain ⟨sketch, hsketch, hpicture, hlabels⟩ := label_of_preview rfl hshown
  have hlabel : (fun s : Sketch => (decide (s.WritesLabel (7, 2) (7, 10) "日本"),
      Sketch.labelPlace (s.stretch (7, 2) (7, 10)))) <$> .ok (sketch 0) =
        (.ok (true, (8, 6)) : Except PreviewError _) := by
    rw [← hsketch 0]
    decide +kernel
  obtain ⟨hwrites, hplace⟩ := Prod.mk.inj (Except.ok.inj hlabel)
  have hwrites := of_decide_eq_true hwrites
  have hshows := (hlabels 0 _ (7, 2) (7, 10) rfl (by decide +kernel)).2 hwrites 8 6 hplace 2
    (by decide)
  exact ⟨shown, _, _, _, _, sketch 0, sketch 2, hshown, rfl, rfl, by decide +kernel, hsketch 0,
    hwrites, hsketch 2, hpicture, hshows.2.2 (by decide +kernel)⟩

/-- Two connectors between two boxes, there and back; the label of the first one has a blank. -/
def thereAndBack : List Element :=
  [plainShape "a" .rectangle 0 0 "a", plainShape "b" .rectangle 0 160 "b",
   .connector { id := "arrow-a-b", start := ⟨60, 30⟩, stop := ⟨60, 190⟩, text := some "go on",
                style := .ofConnector, startArrowhead := none, endArrowhead := some "arrow",
                seed := 0, nonce := 0 },
   .connector { id := "arrow-b-a", start := ⟨90, 190⟩, stop := ⟨90, 30⟩, text := none,
                style := .ofConnector, startArrowhead := none, endArrowhead := some "arrow",
                seed := 0, nonce := 0 }]

/-- The label is written, and then the second connector runs through its blank. -/
theorem label_of_preview_thereAndBack :
    ∃ shown first others e e' s s' s'', preview thereAndBack "unicode" false = .ok shown ∧
      thereAndBack.filterMap Element.shape? = first :: others ∧
      thereAndBack.filterMap Element.connector? = [e, e'] ∧ e.text = some "go on" ∧
      e.ends (originOf first others) = .ok ((7, 2), (7, 10)) ∧
      sketchOf false first others [] = .ok s ∧ s.WritesLabel (7, 2) (7, 10) "go on" ∧
      sketchOf false first others [e] = .ok s' ∧
      s'.canvas.Shows 8 6 (faces (Text.fitText "go on" 12).toList) ∧
      sketchOf false first others [e, e'] = .ok s'' ∧ s''.canvas.picture false = shown ∧
      s''.canvas.face? 10 6 = some ("·", 1) ∧
      ¬ s''.canvas.Shows 8 6 (faces (Text.fitText "go on" 12).toList) := by
  have hdrawn : (fun _ => ()) <$> preview thereAndBack "unicode" false = .ok () := by
    decide +kernel
  obtain ⟨shown, hshown, -⟩ := exists_of_map_eq_ok hdrawn
  obtain ⟨sketch, hsketch, hpicture, -⟩ := exists_steps_of_preview rfl hshown
  have hwrites : (fun s : Sketch => decide (s.WritesLabel (7, 2) (7, 10) "go on")) <$>
      .ok (sketch 0) = (.ok true : Except PreviewError _) := by
    rw [← hsketch 0]
    decide +kernel
  have hlabelled : (fun s : Sketch =>
      decide (s.canvas.Shows 8 6 (faces (Text.fitText "go on" 12).toList))) <$> .ok (sketch 1) =
        (.ok true : Except PreviewError _) := by
    rw [← hsketch 1]
    decide +kernel
  have hcrossed : (fun s : Sketch => s.canvas.face? 10 6) <$> .ok (sketch 2) =
      (.ok (some ("·", 1)) : Except PreviewError _) := by
    rw [← hsketch 2]
    decide +kernel
  have hcrossed : (sketch 2).canvas.face? 10 6 = some ("·", 1) := Except.ok.inj hcrossed
  refine ⟨shown, _, _, _, _, sketch 0, sketch 1, sketch 2, hshown, rfl, rfl, rfl, by decide +kernel,
    hsketch 0, of_decide_eq_true (Except.ok.inj hwrites), hsketch 1,
    of_decide_eq_true (Except.ok.inj hlabelled), hsketch 2, hpicture, hcrossed, fun hshows => ?_⟩
  have hgap := hshows 2 (by decide +kernel)
  rw [show (8 : Int) + (2 : Nat) = 10 from rfl, hcrossed] at hgap
  exact absurd hgap (by decide +kernel)

end Flowchart
