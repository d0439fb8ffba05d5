import Flowchart.Proofs.Canvas.Sketch
import Flowchart.Proofs.Canvas.Sound
import Flowchart.Proofs.Text.Fit

/-! # Sketches are sound

A label stands inside a box, whose right edge is drawn before the label and before the inside is
cleared, so its tags have ink right of them (`sound_drawLabelled`).  The cells of a trail are ink
themselves, and the label of a connector is written on blank cells.  Being sound is therefore an
invariant of sketches (`Sketch.invariant_sound`). -/

namespace Flowchart

/-! ### Glyphs and tags -/

/-- No glyph of a style is blank. -/
def BoxGlyphs.Inked (g : BoxGlyphs) : Prop := ∀ d ∈ g.toList, Text.isBlank d = false

theorem BoxGlyphs.inked_of_mem {g : BoxGlyphs} (h : g ∈ [square, round, diamond, ascii]) :
    g.Inked := by
  intro d hd
  have hink := of_mem_toList (p := fun d => !Text.isBlank d) (by decide) h d hd
  simpa using hink

theorem ShapeElement.glyphs_mem (e : ShapeElement) (ascii : Bool) :
    e.glyphs ascii ∈ [BoxGlyphs.square, .round, .diamond, .ascii] := by
  unfold glyphs
  split
  · simp
  · split
    · simp
    · split <;> simp

theorem connectorGlyphs_mem (ascii : Bool) :
    connectorGlyphs ascii ∈ [BoxGlyphs.square, .round, .diamond, .ascii] := by
  unfold connectorGlyphs
  split <;> simp

theorem ShapeElement.inked_glyphs (e : ShapeElement) (ascii : Bool) : (e.glyphs ascii).Inked :=
  BoxGlyphs.inked_of_mem (e.glyphs_mem ascii)

theorem inked_connectorGlyphs (ascii : Bool) : (connectorGlyphs ascii).Inked :=
  BoxGlyphs.inked_of_mem (connectorGlyphs_mem ascii)

theorem isTag_of_body {tag : String} (body : List Char)
    (htag : tag.toList = Markup.bracketed body)
    (hbody : Markup.groupBody? (body ++ [']']) = some body) : IsTag tag :=
  ⟨body, htag, Markup.isBody_of_groupBody? hbody⟩

theorem isTag_tag (kind : ElementKind) : IsTag kind.tag := by
  cases kind with
  | rectangle => exact isTag_of_body "bold cyan".toList rfl (by decide)
  | diamond => exact isTag_of_body "bold yellow".toList rfl (by decide)
  | ellipse => exact isTag_of_body "bold magenta".toList rfl (by decide)
  | arrow => exact isTag_of_body "bold".toList rfl (by decide)

theorem isTag_closingTag : IsTag closingTag := isTag_of_body ['/'] rfl (by decide)

theorem isTag_trailTag : IsTag trailTag := isTag_of_body "dim".toList rfl (by decide)

namespace Canvas

/-! ### Walls -/

variable {c : Canvas} {x y : Int}

/-- A sound canvas with ink at some places. -/
structure Walled (walls : List Place) (c : Canvas) : Prop where
  sound : c.Sound
  ink : ∀ p ∈ walls, c.InkAt p.1 p.2

theorem Walled.mono {walls walls' : List Place} (h : Walled walls c) (hsub : walls' ⊆ walls) :
    Walled walls' c :=
  ⟨h.sound, fun p hp => h.ink p (hsub hp)⟩

theorem Sound.walled (h : c.Sound) : Walled [] c := ⟨h, fun _ hp => nomatch hp⟩

theorem walled_drawGlyph {d : Char} (hd : Text.isBlank d = false) (walls : List Place) (x y : Int) :
    Triple (Walled walls) (drawGlyph x y d) fun _ => Walled ((x, y) :: walls) := by
  refine Triple.drawGlyph fun c hc hin => ⟨hc.sound.put (.inl (ink_toString hd)), ?_⟩
  intro p hp
  rcases List.mem_cons.mp hp with rfl | hp
  · exact inkAt_put hin (ink_toString hd)
  · exact (hc.ink p hp).put (.inl (ink_toString hd))

theorem keeps_drawGlyph {d : Char} (hd : Text.isBlank d = false) (walls : List Place) (x y : Int) :
    Triple (Walled walls) (drawGlyph x y d) fun _ => Walled walls :=
  (walled_drawGlyph hd walls x y).mono fun _ _ hc => hc.mono (List.subset_cons_self _ _)

theorem sound_drawGlyph {d : Char} (hd : Text.isBlank d = false) (x y : Int) :
    Triple Sound (drawGlyph x y d) fun _ => Sound :=
  ((keeps_drawGlyph hd [] x y).mono fun _ _ hc => hc.sound).of_imp fun _ hc => hc.walled

theorem Walled.put_of_lt {walls : List Place} {right : Int} (h : Walled walls c)
    (hright : (right, y) ∈ walls) (hout : (x, y) ∉ walls) (hx : x < right) (glyph : String)
    (width : Nat) : Walled walls (c.update x y (Cell.holding glyph width)) := by
  refine ⟨h.sound.put (.inr (.inl ⟨right, hx, h.ink _ hright⟩)), ?_⟩
  intro p hp
  refine (h.ink p hp).put (.inr ?_)
  rintro ⟨rfl, rfl⟩
  exact hout hp

theorem walled_write [Text.Measure] {right : Int} (text : String)
    (hx : x + Text.displayWidth text ≤ right) :
    Triple (Walled [(right, y)]) (write x y text) fun stop c =>
      stop = x + Text.displayWidth text ∧ Walled [(right, y)] c := by
  refine Triple.write (P := fun _ => Walled [(right, y)]) (G := fun _ => True) trivial ?_
    (fun _ _ => trivial) x hx
  intro x glyph width hlt _
  refine Triple.put fun c hc _ => hc.put_of_lt List.mem_cons_self ?_ hlt glyph width
  rw [List.mem_singleton, Prod.mk.injEq]
  omega

/-! ### Boxes -/

/-- A row of a box: the edges are drawn, and then the inside is cleared. -/
theorem walled_drawRow {g : BoxGlyphs} (hg : g.Inked) {b : Box} {walls : List Place}
    (hwalls : ∀ p ∈ walls, p.1 = b.right) (y : Int) :
    Triple (Walled walls) (drawRow g b y) fun _ => Walled ((b.right, y) :: walls) := by
  have hvertical : Text.isBlank g.vertical = false := hg _ (by simp [BoxGlyphs.toList])
  refine (keeps_drawGlyph hvertical walls b.left y).bind fun _ => ?_
  refine (walled_drawGlyph hvertical walls b.right y).bind fun _ => ?_
  refine Triple.forM fun x hx => Triple.drawGlyph fun c hc _ => ?_
  obtain ⟨-, hright⟩ := mem_between.mp hx
  refine hc.put_of_lt List.mem_cons_self ?_ hright _ 1
  intro hmem
  rcases List.mem_cons.mp hmem with heq | hmem
  · have : x = b.right := congrArg Prod.fst heq
    omega
  · have : x = b.right := hwalls _ hmem
    omega

theorem walled_drawRows {g : BoxGlyphs} (hg : g.Inked) {b : Box} (rows : List Int)
    {walls : List Place} (hwalls : ∀ p ∈ walls, p.1 = b.right) :
    Triple (Walled walls) (rows.forM (drawRow g b))
      fun _ => Walled (walls ++ rows.map fun y => (b.right, y)) := by
  induction rows generalizing walls with
  | nil =>
      rw [List.map_nil, List.append_nil]
      exact .pure (Q := fun _ => Walled walls) ()
  | cons y rows ih =>
      have hnext : ∀ p ∈ (b.right, y) :: walls, p.1 = b.right :=
        List.forall_mem_cons.mpr ⟨rfl, hwalls⟩
      refine (walled_drawRow hg hwalls y).bind fun _ => (ih hnext).mono fun _ c hc => hc.mono ?_
      intro p hp
      simp only [List.map_cons, List.mem_append, List.mem_cons] at hp ⊢
      tauto

theorem walled_drawBox {g : BoxGlyphs} (hg : g.Inked) {b : Box} {row : Int}
    (hrow : b.top < row ∧ row < b.bottom) :
    Triple Sound (drawBox g b) fun _ => Walled [(b.right, row)] := by
  have hglyph : ∀ d ∈ g.toList, ∀ walls x y,
      Triple (Walled walls) (drawGlyph x y d) fun _ => Walled walls :=
    fun d hd walls x y => keeps_drawGlyph (hg d hd) walls x y
  have hedges : Triple (Walled []) ((between b.left b.right).forM fun x => do
      drawGlyph x b.top g.horizontal
      drawGlyph x b.bottom g.horizontal) fun _ => Walled [] := by
    refine Triple.forM fun x _ => ?_
    refine (hglyph g.horizontal (by simp [BoxGlyphs.toList]) [] x b.top).bind fun _ => ?_
    exact hglyph g.horizontal (by simp [BoxGlyphs.toList]) [] x b.bottom
  have hrows : Triple (Walled []) ((between b.top b.bottom).forM (drawRow g b))
      fun _ => Walled [(b.right, row)] := by
    have hnone : ∀ p ∈ ([] : List Place), p.1 = b.right := by simp
    refine (walled_drawRows hg (between b.top b.bottom) hnone).mono fun _ c hc => hc.mono ?_
    intro p hp
    obtain rfl := List.mem_singleton.mp hp
    exact List.mem_map.mpr ⟨row, mem_between.mpr hrow, rfl⟩
  rw [drawBox_eq]
  refine Triple.bind (hedges.of_imp fun c hc => hc.walled) fun _ => ?_
  refine hrows.bind fun _ => ?_
  refine (hglyph g.topLeft (by simp [BoxGlyphs.toList]) _ _ _).bind fun _ => ?_
  refine (hglyph g.topRight (by simp [BoxGlyphs.toList]) _ _ _).bind fun _ => ?_
  refine (hglyph g.bottomLeft (by simp [BoxGlyphs.toList]) _ _ _).bind fun _ => ?_
  exact hglyph g.bottomRight (by simp [BoxGlyphs.toList]) _ _ _

/-- A label in a box is written, and marked, left of the edge of the box. -/
theorem sound_drawLabelled [Text.Measure] {g : BoxGlyphs} (hg : g.Inked) {b : Box}
    (hroomy : b.Roomy) (text : String) {tag : String} (htag : IsTag tag) :
    Triple Sound (drawLabelled g b text tag) fun _ => Sound := by
  obtain ⟨-, hcolumn, hrow⟩ := hroomy.label_inside text
  unfold drawLabelled
  refine (walled_drawBox hg hrow).bind fun _ => ?_
  refine (walled_write _ hcolumn).bind fun stop => ?_
  split
  · next hne =>
      have hwidth := Text.one_le_displayWidth hne
      refine Triple.of_modify ?_
      rintro c ⟨rfl, hc⟩
      have hink := hc.ink _ List.mem_cons_self
      refine (hc.sound.mark htag .before ⟨b.right, by omega, hink⟩).mark isTag_closingTag .after ?_
      exact ⟨b.right, by omega, hink.mark _ _ _ _⟩
  · exact (Triple.pure (Q := fun _ => Sound) ()).of_imp fun c hc => hc.2.sound

/-! ### Connectors -/

theorem sound_drawTrail {d : Char} (hd : Text.isBlank d = false) (cells : List Place) :
    Triple Sound (drawTrail d cells) fun _ => Sound := by
  refine Triple.forM fun p _ => ?_
  have hdraw := (walled_drawGlyph hd [] p.1 p.2).of_imp fun c hc => Sound.walled hc
  refine hdraw.bind fun _ => Triple.of_modify fun c hc => ?_
  have hink := hc.ink _ List.mem_cons_self
  refine (hc.sound.mark isTag_trailTag .before ⟨p.1, by omega, hink⟩).mark
    isTag_closingTag .after ?_
  exact ⟨p.1, by omega, hink.mark _ _ _ _⟩

theorem not_inkAt_of_isBlank (h : c.isBlank x y = true) : ¬ c.InkAt x y := by
  rintro ⟨cell, hcell, hinked⟩
  obtain ⟨d, hd, hblank⟩ := hinked.glyph
  rw [isBlank, hcell] at h
  have hglyph : cell.glyph = " " := by simpa using (Bool.and_eq_true_iff.mp h).2
  rw [hglyph] at hd
  obtain rfl : ' ' = d := by simpa using hd
  revert hblank
  decide

theorem sound_write [Text.Measure] (x y : Int) (text : String) :
    Triple (fun c => c.Sound ∧ c.BlankFrom y x (x + Text.displayWidth text)) (write x y text)
      fun _ => Sound := by
  refine (Triple.write
    (P := fun first c => c.Sound ∧ c.BlankFrom y first (x + Text.displayWidth text))
    (G := fun _ => True) trivial ?_ (fun _ _ => trivial) x (Int.le_refl _)).mono
    fun _ _ hc => hc.2.1
  intro x₁ glyph width hlt _
  refine Triple.put fun c hc _ => ?_
  obtain ⟨hsound, hblank⟩ := hc
  have hnone := not_inkAt_of_isBlank (hblank x₁ (Int.le_refl _) hlt)
  refine ⟨hsound.put (.inr (.inr hnone)), ?_⟩
  intro x' hfirst hstop
  rw [isBlank, cell?_update, if_neg (by omega)]
  exact hblank x' (by omega) hstop

end Canvas

/-! ### Sketches -/

theorem Sketch.invariant_sound [Text.Measure] (ascii : Bool) (shapes : List ShapeElement)
    (connectors : List ConnectorElement) : Invariant ascii shapes connectors Canvas.Sound where
  empty := Canvas.sound_empty
  shape e _ _ hroomy :=
    Canvas.sound_drawLabelled (e.inked_glyphs ascii) hroomy e.text (isTag_tag e.kind)
  trail cells :=
    Canvas.sound_drawTrail (inked_connectorGlyphs ascii _ (by simp [BoxGlyphs.toList])) cells
  tip d hd x y := Canvas.sound_drawGlyph (inked_connectorGlyphs ascii d hd) x y
  label _ _ _ _ x y := Canvas.sound_write x y _

end Flowchart
