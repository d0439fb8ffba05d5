import Flowchart.Proofs.Canvas.Connector

/-! # Where arrows point

The tip of a connector stands on the last cell of the first free stretch of its line.  Which cells
are free depends on all boxes and on the connectors drawn before; the line itself leads straight
from its start to its end, so that it leaves the box of its start once and for all, and once in the
box of its end it stays there (`pairwise_toward_lineCells`).

So there is always a cell behind the tip that is not free, and the tip is at its target exactly if
behind it only the target is in the way (`exists_tip_of_preview`).  Otherwise the arrow points at
what is in the way: a box between two others has the arrow that belongs to the one behind it
(`tip_of_preview_column`). -/

namespace Flowchart

/-! ### Lines between boxes -/

/-- A place lies on the way from another one to a target, in each coordinate. -/
structure Toward (target p q : Place) : Prop where
  column : p.1 ≤ q.1 ∧ q.1 ≤ target.1 ∨ target.1 ≤ q.1 ∧ q.1 ≤ p.1
  row : p.2 ≤ q.2 ∧ q.2 ≤ target.2 ∨ target.2 ≤ q.2 ∧ q.2 ≤ p.2

section
variable {start stop target p q r : Place} {b : Box}

theorem Toward.refl (target p : Place) : Toward target p p := ⟨by omega, by omega⟩

theorem Toward.trans (h : Toward target p q) (h' : Toward target q r) : Toward target p r := by
  obtain ⟨hcolumn, hrow⟩ := h
  obtain ⟨hcolumn', hrow'⟩ := h'
  exact ⟨by omega, by omega⟩

theorem Advances.toward (h : Advances start stop p q) : Toward stop p q := by
  obtain ⟨hcolumn, hrow, -, -⟩ := h
  unfold Nears at hcolumn hrow
  exact ⟨by omega, by omega⟩

/-- On the way to a target in a box the box is not left. -/
theorem Toward.contains (h : Toward target p q) (hp : b.contains p = true)
    (htarget : b.contains target = true) : b.contains q = true := by
  obtain ⟨hcolumn, hrow⟩ := h
  rw [Box.contains_iff] at hp htarget ⊢
  omega

/-- On the way from one place of a box to another one the box is not left. -/
theorem Toward.contains_between (h : Toward target p q) (h' : Toward target q r)
    (hp : b.contains p = true) (hr : b.contains r = true) : b.contains q = true := by
  obtain ⟨hcolumn, hrow⟩ := h
  obtain ⟨hcolumn', hrow'⟩ := h'
  rw [Box.contains_iff] at hp hr ⊢
  omega

instance (target : Place) : IsTrans Place (Toward target) := ⟨fun _ _ _ => Toward.trans⟩

/-- Every cell of a line is on the way from the ones before it to the end. -/
theorem pairwise_toward_lineCells (start stop : Place) :
    (lineCells start stop).Pairwise (Toward stop) := by
  have hchain := (walk_lineCells start stop).isChain
    (LineCourse.from_between start stop).reached_start (Nat.zero_le _)
  exact (hchain.imp fun _ _ h => h.toward).pairwise

theorem toward_of_mem_lineCells (hp : p ∈ lineCells start stop) : Toward stop start p := by
  obtain ⟨rest, hline⟩ := List.head?_eq_some_iff.mp (walk_lineCells start stop).head?
  have hpairwise := pairwise_toward_lineCells start stop
  rw [hline] at hp hpairwise
  rcases List.mem_cons.mp hp with rfl | hp
  · exact .refl stop p
  · exact List.rel_of_pairwise_cons hpairwise hp

end

/-- A connector leads from a place in the box of a shape to one in the box of a shape. -/
structure ConnectorElement.Joins (e : ConnectorElement) (o : Origin) (shapes : List ShapeElement)
    (start stop : Place) (source target : Box) : Prop where
  ends : e.ends o = .ok (start, stop)
  source : source.contains start = true ∧ ∃ a ∈ shapes, a.box o = .ok source
  target : target.contains stop = true ∧ ∃ a ∈ shapes, a.box o = .ok target

namespace Sketch

variable {s s' : Sketch} {ascii : Bool} {start stop tip next p : Place}
  {line front trail back : List Place} {text : String} {source target : Box}

/-- The parts of a line: cells that are not free, then free ones, of which the last one is the tip,
then one that is not free and the rest. -/
structure Parts (s : Sketch) (line front trail : List Place) (tip next : Place)
    (back : List Place) : Prop where
  line : line = front ++ (trail ++ tip :: next :: back)
  front : ∀ p ∈ front, s.isFree p = false
  trail : ∀ p ∈ trail, s.isFree p = true
  tip : s.isFree tip = true
  next : s.isFree next = false

/-- A line whose end is not free has these parts, unless none of its cells is free. -/
theorem exists_parts (hlast : line.getLast? = some stop) (hstop : s.isFree stop = false)
    (hfree : ∃ p ∈ line, s.isFree p = true) :
    ∃ front trail tip next back, s.Parts line front trail tip next back := by
  obtain ⟨first, hfound⟩ := Option.isSome_iff_exists.mp (List.find?_isSome.mpr hfree)
  obtain ⟨hfirst, front, rest, rfl, hfront⟩ := List.find?_eq_some_iff_append.mp hfound
  -- The end of the line is not free, so that the stretch ends before.
  have hmem : stop ∈ first :: rest := by
    rw [List.getLast?_append_cons] at hlast
    exact List.mem_of_getLast? hlast
  have hsome : ((first :: rest).find? fun p => !s.isFree p).isSome = true :=
    List.find?_isSome.mpr ⟨stop, hmem, by rw [hstop]; rfl⟩
  obtain ⟨next, hfound⟩ := Option.isSome_iff_exists.mp hsome
  obtain ⟨hnext, stretch, back, heq, hstretch⟩ := List.find?_eq_some_iff_append.mp hfound
  simp only [Bool.not_eq_eq_eq_not, Bool.not_true, Bool.not_not] at hfront hnext hstretch
  rcases List.eq_nil_or_concat' stretch with rfl | ⟨trail, tip, rfl⟩
  · obtain ⟨rfl, -⟩ := List.cons.inj heq
    rw [hfirst] at hnext
    cases hnext
  · rw [heq]
    refine ⟨front, trail, tip, next, back, ?_, hfront, fun q hq => ?_, ?_, hnext⟩
    · rw [List.append_assoc]
      rfl
    · exact hstretch q (List.mem_append_left _ hq)
    · exact hstretch tip List.mem_concat_self

theorem Parts.freeStretch_eq (h : s.Parts line front trail tip next back) :
    s.freeStretch line = trail ++ [tip] := by
  have hfront : (trail ++ tip :: next :: back).dropWhile (fun p => !s.isFree p) =
      trail ++ tip :: next :: back := by
    cases trail with
    | nil => simp [h.tip]
    | cons first trail => simp [h.trail first List.mem_cons_self]
  rw [freeStretch, h.line, List.dropWhile_append_of_pos fun p hp => by simp [h.front p hp], hfront,
    List.takeWhile_append_of_pos h.trail, List.takeWhile_cons_of_pos h.tip,
    List.takeWhile_cons_of_neg (by simp [h.next])]

namespace Parts

theorem pairwise_toward (h : s.Parts (lineCells start stop) front trail tip next back) :
    (tip :: next :: back).Pairwise (Toward stop) := by
  have hpairwise := pairwise_toward_lineCells start stop
  rw [h.line] at hpairwise
  exact hpairwise.sublist
    ((List.sublist_append_right trail _).trans (List.sublist_append_right front _))

/-- Once a line is in the box of its end, it stays there. -/
theorem contains_of_contains_next (h : s.Parts (lineCells start stop) front trail tip next back)
    (hstop : target.contains stop = true) (hnext : target.contains next = true) (hp : p ∈ back) :
    target.contains p = true :=
  (List.rel_of_pairwise_cons h.pairwise_toward.of_cons hp).contains hnext hstop

/-- The tip is at the target exactly if behind it only the target is in the way. -/
theorem contains_next_iff (h : s.Parts (lineCells start stop) front trail tip next back)
    (hstop : target.contains stop = true) : target.contains next = true ↔
      ∀ p ∈ next :: back, s.isFree p = false → target.contains p = true := by
  refine ⟨fun hnext => List.forall_mem_cons.mpr ⟨fun _ => hnext, fun p hp _ => ?_⟩, fun hall => ?_⟩
  · exact h.contains_of_contains_next hstop hnext hp
  · exact hall next List.mem_cons_self h.next

/-- If nothing but the two boxes is in the way, the tip is at the target. -/
theorem contains_next_of_clear (h : s.Parts (lineCells start stop) front trail tip next back)
    (hsource : ∀ p, source.contains p = true → s.isFree p = false)
    (hstart : source.contains start = true)
    (hclear : ∀ p ∈ lineCells start stop, s.isFree p = false →
      source.contains p = true ∨ target.contains p = true) : target.contains next = true := by
  have htip : tip ∈ lineCells start stop := by simp [h.line]
  have hnext : next ∈ lineCells start stop := by simp [h.line]
  refine (hclear next hnext h.next).resolve_left fun hback => ?_
  -- The line would be in the box of its start again, and so would the tip.
  have hstep : Toward stop tip next :=
    List.rel_of_pairwise_cons h.pairwise_toward List.mem_cons_self
  have hin := (toward_of_mem_lineCells htip).contains_between hstep hstart hback
  have hfree := h.tip
  rw [hsource tip hin] at hfree
  cases hfree

theorem face?_of_retains [Text.Measure] {mid : Sketch}
    (h : s.Parts (lineCells start stop) front trail tip next back)
    (hconnected : Connected ascii start stop text s mid) (hretains : mid.Retains s') :
    (∀ p ∈ trail, s'.canvas.face? p.1 p.2 =
      some ((connectorGlyphs ascii).trail.toString, 1)) ∧
    s'.canvas.face? tip.1 tip.2 =
      some (((connectorGlyphs ascii).tip (stop.1 - start.1) (stop.2 - start.2)).toString, 1) := by
  have hstretch : s.stretch start stop = trail ++ [tip] := h.freeStretch_eq
  have hkept : ∀ p ∈ trail ++ [tip], s'.canvas.face? p.1 p.2 = mid.canvas.face? p.1 p.2 := by
    intro p hp
    exact hretains.same p.1 p.2
      (isFree_eq_false_iff.mpr (.inr (hconnected.isBlank_eq_false (hstretch ▸ hp))))
  refine ⟨fun p hp => ?_, ?_⟩
  · rw [hkept p (List.mem_append_left _ hp)]
    exact hconnected.trail p (by rwa [hstretch, List.dropLast_concat])
  · rw [hkept tip List.mem_concat_self]
    exact hconnected.tip tip (by rw [hstretch, List.getLast?_concat]; rfl)

end Parts

end Sketch

/-- **Where arrows point.**  A connector of a preview leads from a box to a box.  If no cell of its
line is free, it is left out.  Otherwise it has a tip, on a cell of the line with a cell behind it
that is not free; trail and tip are shown to the end.  If the next cell is in the box of the target,
so are all that follow.  It is exactly if behind the tip only the target is in the way, so always if
nothing but the two boxes is. -/
theorem tip_of_preview [Text.Measure] {elements : List Element} {style shown : String}
    {marked : Bool} {first : ShapeElement} {others : List ShapeElement}
    (hshapes : elements.filterMap Element.shape? = first :: others)
    (h : preview elements style marked = .ok shown) :
    ∃ sketch : Nat → Sketch,
      (∀ n, sketchOf (BoxGlyphs.isAsciiName style) first others
        ((elements.filterMap Element.connector?).take n) = .ok (sketch n)) ∧
      (sketch (elements.filterMap Element.connector?).length).canvas.picture marked = shown ∧
      ∀ n e start stop source target, (elements.filterMap Element.connector?)[n]? = some e →
        e.Joins (originOf first others) (first :: others) start stop source target →
        (∀ p ∈ lineCells start stop, (sketch n).isFree p = false) ∧ sketch (n + 1) = sketch n ∨
        ∃ front trail tip next back,
          (sketch n).Parts (lineCells start stop) front trail tip next back ∧
          (∀ m, n < m →
            (∀ p ∈ trail, (sketch m).canvas.face? p.1 p.2 =
              some ((connectorGlyphs (BoxGlyphs.isAsciiName style)).trail.toString, 1)) ∧
            (sketch m).canvas.face? tip.1 tip.2 =
              some (((connectorGlyphs (BoxGlyphs.isAsciiName style)).tip (stop.1 - start.1)
                (stop.2 - start.2)).toString, 1)) ∧
          (target.contains next = true → ∀ p ∈ back, target.contains p = true) ∧
          (target.contains next = true ↔
            ∀ p ∈ next :: back, (sketch n).isFree p = false → target.contains p = true) ∧
          ((∀ p ∈ lineCells start stop, (sketch n).isFree p = false →
            source.contains p = true ∨ target.contains p = true) →
              target.contains next = true) := by
  obtain ⟨sketch, hsketch, hpicture, hsteps⟩ := exists_steps_of_preview hshapes h
  refine ⟨sketch, hsketch, hpicture, fun n e start stop source target hn hjoins => ?_⟩
  have hadd := hsteps.addLine hn hjoins.ends
  have hboxed : ∀ b p, (∃ a ∈ first :: others, a.box (originOf first others) = .ok b) →
      b.contains p = true → (sketch n).isFree p = false := by
    rintro b p ⟨a, ha, hbox⟩ hp
    exact Sketch.isFree_eq_false_iff.mpr (.inl (Sketch.boxed_of_sketchOf (hsketch n) ha hbox hp))
  have hstop := hboxed target stop hjoins.target.2 hjoins.target.1
  by_cases hfree : ∃ p ∈ lineCells start stop, (sketch n).isFree p = true
  · right
    obtain ⟨front, trail, tip, next, back, hparts⟩ :=
      Sketch.exists_parts (walk_lineCells start stop).getLast? hstop hfree
    refine ⟨front, trail, tip, next, back, hparts, fun m hm => ?_, fun hnext p hp => ?_,
      hparts.contains_next_iff hjoins.target.1, fun hclear => ?_⟩
    · exact hparts.face?_of_retains (Sketch.connected_of_addLine hadd)
        (hsteps.retains (n + 1) m hm)
    · exact hparts.contains_of_contains_next hjoins.target.1 hnext hp
    · exact hparts.contains_next_of_clear (fun p => hboxed source p hjoins.source.2)
        hjoins.source.1 hclear
  · left
    have hnone : ∀ p ∈ lineCells start stop, (sketch n).isFree p = false := by
      simpa using hfree
    refine ⟨hnone, ?_⟩
    rcases Sketch.cases_of_addLine hadd with ⟨-, heq⟩ | ⟨x, y, trail, tip, hlast, -⟩
    · exact heq
    · have hmem := List.mem_of_getLast? hlast
      have hfree := Sketch.isFree_of_mem_freeStretch hmem
      rw [hnone _ ((List.dropWhile_sublist _).subset ((List.takeWhile_sublist _).subset hmem))]
        at hfree
      cases hfree

theorem tip_of_preview_crossing :
    ∃ shown first others c c', preview crossing "unicode" false = .ok shown ∧
      crossing.filterMap Element.shape? = first :: others ∧
      crossing.filterMap Element.connector? = [c, c'] ∧
      ∃ shapes crossed front trail tip next back, sketchOf false first others [] = .ok shapes ∧
        sketchOf false first others [c, c'] = .ok crossed ∧ crossed.canvas.picture false = shown ∧
        shapes.Parts (lineCells (7, 2) (7, 10)) front trail tip next back ∧
        crossed.canvas.face? tip.1 tip.2 = some ("▼", 1) ∧
        Box.contains ⟨1, 9, 12, 11⟩ next = true := by
  have hdrawn : (fun _ => ()) <$> preview crossing "unicode" false = .ok () := by decide +kernel
  obtain ⟨shown, hshown, -⟩ := exists_of_map_eq_ok hdrawn
  obtain ⟨sketch, hsketch, hpicture, htips⟩ := tip_of_preview rfl hshown
  have hline : (fun s : Sketch => (s.isFree (7, 5), decide (∀ p ∈ lineCells (7, 2) (7, 10),
      s.isFree p = false → Box.contains ⟨1, 1, 12, 3⟩ p = true ∨
        Box.contains ⟨1, 9, 12, 11⟩ p = true))) <$> .ok (sketch 0) =
      (.ok (true, true) : Except PreviewError _) := by
    rw [← hsketch 0]
    decide +kernel
  obtain ⟨hfree, hclear⟩ := Prod.mk.inj (Except.ok.inj hline)
  have htip := htips 0 _ (7, 2) (7, 10) ⟨1, 1, 12, 3⟩ ⟨1, 9, 12, 11⟩ rfl
    ⟨by decide +kernel, ⟨by decide, _, List.mem_cons_self, by decide +kernel⟩,
      ⟨by decide, _, List.mem_cons_of_mem _ List.mem_cons_self, by decide +kernel⟩⟩
  rcases htip with ⟨hnone, -⟩ | ⟨front, trail, tip, next, back, hparts, hshows, -, -, harrives⟩
  · have hblocked : (sketch 0).isFree (7, 5) = false := hnone (7, 5) (by decide)
    rw [hfree] at hblocked
    cases hblocked
  · exact ⟨shown, _, _, _, _, hshown, rfl, rfl, sketch 0, sketch 2, front, trail, tip, next, back,
      hsketch 0, hsketch 2, hpicture, hparts, (hshows 2 (by decide)).2,
      harrives (of_decide_eq_true hclear)⟩

/-- Three boxes in a column, and a connector from the first one to the last. -/
def column : List Element :=
  [plainShape "a" .rectangle 0 0 "a", plainShape "b" .rectangle 0 160 "b",
   plainShape "c" .rectangle 0 320 "c",
   .connector { id := "arrow-a-c", start := ⟨60, 30⟩, stop := ⟨60, 350⟩, text := none,
                style := .ofConnector, startArrowhead := none, endArrowhead := some "arrow",
                seed := 0, nonce := 0 }]

/-- The boxes are apart, but the arrow to the last one stands above the one between. -/
theorem tip_of_preview_column :
    ∃ shown first others e s front back, preview column "unicode" false = .ok shown ∧
      column.filterMap Element.shape? = first :: others ∧
      column.filterMap Element.connector? = [e] ∧
      (first :: others).mapM (ShapeElement.box · (originOf first others)) =
        .ok [⟨1, 1, 12, 3⟩, ⟨1, 9, 12, 11⟩, ⟨1, 17, 12, 19⟩] ∧
      List.Pairwise Box.Disjoint [⟨1, 1, 12, 3⟩, ⟨1, 9, 12, 11⟩, ⟨1, 17, 12, 19⟩] ∧
      e.Joins (originOf first others) (first :: others) (7, 2) (7, 18) ⟨1, 1, 12, 3⟩
        ⟨1, 17, 12, 19⟩ ∧
      sketchOf false first others [e] = .ok s ∧ s.canvas.picture false = shown ∧
      lineCells (7, 2) (7, 18) = front ++ (7, 8) :: (7, 9) :: back ∧
      s.canvas.face? 7 8 = some ("▼", 1) ∧ Box.contains ⟨1, 17, 12, 19⟩ (7, 9) = false := by
  have hdrawn : (fun _ => ()) <$> preview column "unicode" false = .ok () := by decide +kernel
  obtain ⟨shown, hshown, -⟩ := exists_of_map_eq_ok hdrawn
  obtain ⟨s, hs, hpicture⟩ := (preview_eq_ok_iff rfl).mp hshown
  have htip : (fun s : Sketch => s.canvas.face? 7 8) <$> .ok s =
      (.ok (some ("▼", 1)) : Except PreviewError _) := by
    rw [← hs]
    decide +kernel
  have hapart : List.Pairwise Box.Disjoint
      [⟨1, 1, 12, 3⟩, ⟨1, 9, 12, 11⟩, ⟨1, 17, 12, 19⟩] := by
    simp only [List.pairwise_cons, List.forall_mem_cons, List.not_mem_nil, Box.Disjoint,
      Prod.forall, Box.contains_iff]
    exact ⟨⟨fun _ _ => by omega, fun _ _ => by omega, nofun⟩, ⟨fun _ _ => by omega, nofun⟩, nofun,
      .nil⟩
  refine ⟨shown, _, _, _, s, [(7, 2), (7, 3), (7, 4), (7, 5), (7, 6), (7, 7)],
    [(7, 10), (7, 11), (7, 12), (7, 13), (7, 14), (7, 15), (7, 16), (7, 17), (7, 18)], hshown, rfl,
    rfl, ?_, hapart, ⟨?_, ⟨by decide, _, List.mem_cons_self, ?_⟩, by decide, _,
      List.mem_cons_of_mem _ (List.mem_cons_of_mem _ List.mem_cons_self), ?_⟩, hs, hpicture, ?_,
    Except.ok.inj htip, by decide⟩
  all_goals decide +kernel

end Flowchart
