import Flowchart.Proofs.Canvas.Preview
import Flowchart.Proofs.Number.Exact

/-! # Shifted drawings

A drawing of integer coordinates and sizes is shifted by integers.  Its origin, the ends of its
shapes and the ends of its connectors are shifted by as much (`Number.Shifted`), and a cell is
counted from the origin (`Number.Shifted.cellOf_eq`).  So the boxes, the canvas and the lines are
the same, and with them each step of the sketch (`sketchOf_eq_of_shifted`) and the preview
(`preview_eq_of_shift`). -/

namespace Flowchart

/-! ### Numbers -/

namespace Number

/-- An integer, and the one that is a distance behind it. -/
def Shifted (d : Int) (x x' : Number) : Prop := ∃ n, x = .int n ∧ x' = .int (n + d)

theorem exists_add {x : Number} (hx : x.isInt = true) (d : Int) :
    ∃ x', x.add (.int d) = .ok x' ∧ x.Shifted d x' := by
  obtain ⟨n, rfl⟩ := exists_eq_int hx
  exact ⟨_, rfl, n, rfl, rfl⟩

namespace Shifted

variable {d : Int} {x x' y y' : Number}

theorem sub_eq (hx : x.Shifted d x') (hy : y.Shifted d y') : x'.sub y' = x.sub y := by
  obtain ⟨m, rfl, rfl⟩ := hx
  obtain ⟨n, rfl, rfl⟩ := hy
  have hdifference : m + d - (n + d) = m - n := by omega
  exact congrArg (fun k => Except.ok (int k)) hdifference

/-- A cell is counted from the origin, wherever that is. -/
theorem cellOf_eq (hx : x.Shifted d x') (hy : y.Shifted d y') (scale : Number) :
    cellOf x' scale y' = cellOf x scale y := by
  unfold cellOf
  rw [hx.sub_eq hy]

theorem exists_add (hx : x.Shifted d x') {w : Number} (hw : w.isInt = true) :
    ∃ r r', x.add w = .ok r ∧ x'.add w = .ok r' ∧ r.Shifted d r' := by
  obtain ⟨m, rfl, rfl⟩ := hx
  obtain ⟨n, rfl⟩ := exists_eq_int hw
  refine ⟨_, _, rfl, rfl, m + n, rfl, ?_⟩
  exact congrArg int (Int.add_right_comm m d n)

theorem lt_eq (hx : x.Shifted d x') (hy : y.Shifted d y') : x'.lt y' = x.lt y := by
  obtain ⟨m, rfl, rfl⟩ := hx
  obtain ⟨n, rfl, rfl⟩ := hy
  rw [Bool.eq_iff_iff, lt_int, lt_int]
  omega

theorem least (hx : x.Shifted d x') {l l' : List Number} (hl : List.Forall₂ (Shifted d) l l') :
    (least x l).Shifted d (least x' l') := by
  refine List.rel_foldl (fun x x' hx y y' hy => ?_) hx hl
  unfold Number.min
  rw [hy.lt_eq hx]
  split
  · exact hy
  · exact hx

theorem greatest (hx : x.Shifted d x') {l l' : List Number} (hl : List.Forall₂ (Shifted d) l l') :
    (greatest x l).Shifted d (greatest x' l') := by
  refine List.rel_foldl (fun x x' hx y y' hy => ?_) hx hl
  unfold Number.max
  rw [hx.lt_eq hy]
  split
  · exact hy
  · exact hx

end Shifted

end Number

/-! ### Elements -/

/-- A point that lies a distance away. -/
def Point.shift (dx dy : Int) (p : Point) : Except ArithmeticError Point := do
  return ⟨← p.x.add (.int dx), ← p.y.add (.int dy)⟩

def Point.isIntegral (p : Point) : Bool := p.x.isInt && p.y.isInt

/-- A point of integer coordinates, and the one that lies a distance away. -/
structure Point.Shifted (dx dy : Int) (p p' : Point) : Prop where
  x : p.x.Shifted dx p'.x
  y : p.y.Shifted dy p'.y

/-- A shape of integer coordinates and sizes, and a shape that is drawn like it at a distance. -/
structure ShapeElement.Shifted (dx dy : Int) (e e' : ShapeElement) : Prop where
  x : e.x.Shifted dx e'.x
  y : e.y.Shifted dy e'.y
  isInt_width : e.width.isInt = true
  isInt_height : e.height.isInt = true
  width : e'.width = e.width
  height : e'.height = e.height
  kind : e'.kind = e.kind
  text : e'.text = e.text
  style : e'.style = e.style

/-- A connector of integer coordinates, and a connector that is drawn like it at a distance. -/
structure ConnectorElement.Shifted (dx dy : Int) (e e' : ConnectorElement) : Prop where
  start : e.start.Shifted dx dy e'.start
  stop : e.stop.Shifted dx dy e'.stop
  text : e'.text = e.text

namespace Element

/-- An element of integer coordinates and sizes. -/
def isIntegral : Element → Bool
  | shape s => s.x.isInt && s.y.isInt && s.width.isInt && s.height.isInt
  | connector c => c.start.isIntegral && c.stop.isIntegral

/-- An element that lies a distance away. -/
def shift (dx dy : Int) : Element → Except ArithmeticError Element
  | shape s => do return shape { s with x := ← s.x.add (.int dx), y := ← s.y.add (.int dy) }
  | connector c => do
    return connector { c with start := ← c.start.shift dx dy, stop := ← c.stop.shift dx dy }

/-- Two elements of one sort, the second of them a distance away. -/
inductive Shifted (dx dy : Int) : Element → Element → Prop
  | shape {s s' : ShapeElement} : s.Shifted dx dy s' → Shifted dx dy (.shape s) (.shape s')
  | connector {c c' : ConnectorElement} :
      c.Shifted dx dy c' → Shifted dx dy (.connector c) (.connector c')

end Element

theorem Point.exists_shift {p : Point} (h : p.isIntegral = true) (dx dy : Int) :
    ∃ p', p.shift dx dy = .ok p' ∧ p.Shifted dx dy p' := by
  obtain ⟨hx, hy⟩ := Bool.and_eq_true_iff.mp h
  obtain ⟨x, haddx, hx⟩ := Number.exists_add hx dx
  obtain ⟨y, haddy, hy⟩ := Number.exists_add hy dy
  exact ⟨⟨x, y⟩, bind_eq_ok haddx (bind_eq_ok haddy rfl), hx, hy⟩

theorem Element.exists_shift {e : Element} (h : e.isIntegral = true) (dx dy : Int) :
    ∃ e', e.shift dx dy = .ok e' ∧ e.Shifted dx dy e' := by
  cases e with
  | shape s =>
      simp only [isIntegral, Bool.and_eq_true] at h
      obtain ⟨⟨⟨hx, hy⟩, hwidth⟩, hheight⟩ := h
      obtain ⟨x, haddx, hx⟩ := Number.exists_add hx dx
      obtain ⟨y, haddy, hy⟩ := Number.exists_add hy dy
      exact ⟨_, bind_eq_ok haddx (bind_eq_ok haddy rfl),
        .shape ⟨hx, hy, hwidth, hheight, rfl, rfl, rfl, rfl, rfl⟩⟩
  | connector c =>
      obtain ⟨hstart, hstop⟩ := Bool.and_eq_true_iff.mp h
      obtain ⟨start, hshift, hstart⟩ := Point.exists_shift hstart dx dy
      obtain ⟨stop, hshift', hstop⟩ := Point.exists_shift hstop dx dy
      exact ⟨_, bind_eq_ok hshift (bind_eq_ok hshift' rfl), .connector ⟨hstart, hstop, rfl⟩⟩

/-! ### Sketches -/

/-- An origin of integer coordinates, and the one that lies a distance away. -/
structure Origin.Shifted (dx dy : Int) (o o' : Origin) : Prop where
  x : o.x.Shifted dx o'.x
  y : o.y.Shifted dy o'.y

section
variable {dx dy : Int} {o o' : Origin} {e e' first first' : ShapeElement}
  {c c' : ConnectorElement} {others others' : List ShapeElement}
  {connectors connectors' : List ConnectorElement}

theorem ShapeElement.Shifted.exists_right (h : e.Shifted dx dy e') :
    ∃ r r', e.right = .ok r ∧ e'.right = .ok r' ∧ r.Shifted dx r' := by
  rw [right, right, h.width]
  exact h.x.exists_add h.isInt_width

theorem ShapeElement.Shifted.exists_bottom (h : e.Shifted dx dy e') :
    ∃ r r', e.bottom = .ok r ∧ e'.bottom = .ok r' ∧ r.Shifted dy r' := by
  rw [bottom, bottom, h.height]
  exact h.y.exists_add h.isInt_height

theorem ShapeElement.Shifted.box_eq (h : e.Shifted dx dy e') (ho : o.Shifted dx dy o') :
    e'.box o' = e.box o := by
  obtain ⟨r, r', hr, hr', hright⟩ := h.exists_right
  obtain ⟨b, b', hb, hb', hbottom⟩ := h.exists_bottom
  unfold box
  rw [h.x.cellOf_eq ho.x, h.y.cellOf_eq ho.y, hr, hr', hb, hb']
  simp only [bind, Except.bind, hright.cellOf_eq ho.x, hbottom.cellOf_eq ho.y]

theorem ShapeElement.Shifted.addShape_eq [Text.Measure] (h : e.Shifted dx dy e')
    (ho : o.Shifted dx dy o')
    (ascii : Bool) (s : Sketch) : s.addShape ascii o' e' = s.addShape ascii o e := by
  unfold Sketch.addShape glyphs
  rw [h.box_eq ho, h.kind, h.text, h.style]

theorem ConnectorElement.Shifted.addConnector_eq [Text.Measure] (h : c.Shifted dx dy c')
    (ho : o.Shifted dx dy o') (ascii : Bool) (s : Sketch) :
    s.addConnector ascii o' c' = s.addConnector ascii o c := by
  unfold Sketch.addConnector
  rw [h.start.x.cellOf_eq ho.x, h.start.y.cellOf_eq ho.y, h.stop.x.cellOf_eq ho.x,
    h.stop.y.cellOf_eq ho.y, h.text]

theorem originOf_shifted (hfirst : first.Shifted dx dy first')
    (hothers : List.Forall₂ (ShapeElement.Shifted dx dy) others others') :
    (originOf first others).Shifted dx dy (originOf first' others') where
  x := hfirst.x.least (List.rel_map (fun _ _ h => h.x) hothers)
  y := hfirst.y.least (List.rel_map (fun _ _ h => h.y) hothers)

/-- The ends of shapes are shifted as the shapes are. -/
theorem exists_mapM_shifted {d : Int} {f : ShapeElement → Except ArithmeticError Number}
    (hf : ∀ e e', e.Shifted dx dy e' →
      ∃ r r', f e = .ok r ∧ f e' = .ok r' ∧ Number.Shifted d r r')
    (hothers : List.Forall₂ (ShapeElement.Shifted dx dy) others others') :
    ∃ rs rs', others.mapM f = .ok rs ∧ others'.mapM f = .ok rs' ∧
      List.Forall₂ (Number.Shifted d) rs rs' := by
  induction hothers with
  | nil => exact ⟨[], [], rfl, rfl, .nil⟩
  | cons hshifted _ ih =>
      obtain ⟨r, r', hr, hr', hend⟩ := hf _ _ hshifted
      obtain ⟨rs, rs', hrs, hrs', hends⟩ := ih
      refine ⟨r :: rs, r' :: rs', ?_, ?_, .cons hend hends⟩ <;> rw [List.mapM_cons]
      · exact bind_eq_ok hr (bind_eq_ok hrs rfl)
      · exact bind_eq_ok hr' (bind_eq_ok hrs' rfl)

theorem canvasFor_eq_of_shifted (ho : o.Shifted dx dy o') (hfirst : first.Shifted dx dy first')
    (hothers : List.Forall₂ (ShapeElement.Shifted dx dy) others others') :
    canvasFor o' first' others' = canvasFor o first others := by
  obtain ⟨r, r', hr, hr', hright⟩ := hfirst.exists_right
  obtain ⟨rs, rs', hrs, hrs', hrights⟩ := exists_mapM_shifted (fun _ _ h => h.exists_right) hothers
  obtain ⟨b, b', hb, hb', hbottom⟩ := hfirst.exists_bottom
  obtain ⟨bs, bs', hbs, hbs', hbottoms⟩ :=
    exists_mapM_shifted (fun _ _ h => h.exists_bottom) hothers
  unfold canvasFor
  rw [hr, hr', hrs, hrs', hb, hb', hbs, hbs']
  simp only [bind, Except.bind, (hright.greatest hrights).cellOf_eq ho.x,
    (hbottom.greatest hbottoms).cellOf_eq ho.y]

/-- Each step of a shifted sketch is that of the sketch. -/
theorem sketchOf_eq_of_shifted [Text.Measure] (hfirst : first.Shifted dx dy first')
    (hothers : List.Forall₂ (ShapeElement.Shifted dx dy) others others')
    (hconnectors : List.Forall₂ (ConnectorElement.Shifted dx dy) connectors connectors')
    (ascii : Bool) :
    sketchOf ascii first' others' connectors' = sketchOf ascii first others connectors := by
  have ho := originOf_shifted hfirst hothers
  have hshapes := foldlM_eq_of_forall₂ (.cons hfirst hothers)
    fun _ _ h s => ShapeElement.Shifted.addShape_eq h ho ascii s
  have hlines := foldlM_eq_of_forall₂ hconnectors
    fun _ _ h s => ConnectorElement.Shifted.addConnector_eq h ho ascii s
  unfold sketchOf
  simp only [canvasFor_eq_of_shifted ho hfirst hothers, hshapes, hlines]

end

theorem preview_eq_of_shifted [Text.Measure] {dx dy : Int} {elements shifted : List Element}
    (h : List.Forall₂ (Element.Shifted dx dy) elements shifted) (style : String) (marked : Bool) :
    preview shifted style marked = preview elements style marked := by
  have hshapes : List.Forall₂ (ShapeElement.Shifted dx dy) (elements.filterMap Element.shape?)
      (shifted.filterMap Element.shape?) := by
    refine List.rel_filterMap ?_ h
    rintro _ _ (hshape | hconnector)
    · exact .some hshape
    · exact .none
  have hconnectors : List.Forall₂ (ConnectorElement.Shifted dx dy)
      (elements.filterMap Element.connector?) (shifted.filterMap Element.connector?) := by
    refine List.rel_filterMap ?_ h
    rintro _ _ (hshape | hconnector)
    · exact .none
    · exact .some hconnector
  unfold preview
  generalize elements.filterMap Element.shape? = shapes at hshapes ⊢
  generalize shifted.filterMap Element.shape? = shapes' at hshapes ⊢
  cases hshapes with
  | nil => rfl
  | cons hfirst hothers => simp only [sketchOf_eq_of_shifted hfirst hothers hconnectors]

/-- **A preview does not depend on where a drawing lies.**  Elements of integer coordinates and
sizes can be shifted by integers, and the preview of the shifted elements is the same, in every
style and with or without tags; it fails if that of the elements does, and in the same way. -/
theorem preview_eq_of_shift [Text.Measure] {elements : List Element}
    (h : ∀ e ∈ elements, e.isIntegral = true)
    (dx dy : Int) : ∃ shifted, elements.mapM (Element.shift dx dy) = .ok shifted ∧
      ∀ style marked, preview shifted style marked = preview elements style marked := by
  have hsteps : ∀ e ∈ elements, ∃ e', e.shift dx dy = .ok e' :=
    fun e he => (Element.exists_shift (h e he) dx dy).imp fun _ he' => he'.1
  obtain ⟨shifted, hshifted⟩ := exists_mapM_eq_ok hsteps
  have hpairs := (List.forall₂_and_left _ _).mpr ⟨h, forall₂_of_mapM_eq_ok hshifted⟩
  have hrel : List.Forall₂ (Element.Shifted dx dy) elements shifted := by
    refine hpairs.imp fun e e' he => ?_
    obtain ⟨e'', heq, hrel⟩ := Element.exists_shift he.1 dx dy
    obtain rfl := Except.ok.inj (heq.symm.trans he.2)
    exact hrel
  exact ⟨shifted, hshifted, preview_eq_of_shifted hrel⟩

/-- Shapes and connectors left of and above zero, and a connector that runs beside all shapes. -/
def offCentre : List Element :=
  [plainShape "a" .rectangle (.int (-65)) (.int (-3)) "a",
   plainShape "b" .diamond (.int 80) (.int (-45)) "b",
   .connector { id := "arrow-a-b", start := ⟨.int (-5), .int 27⟩, stop := ⟨.int 140, .int (-15)⟩,
                text := some "to b", style := .ofConnector, startArrowhead := none,
                endArrowhead := some "arrow", seed := 0, nonce := 0 },
   .connector { id := "arrow-off", start := ⟨.int (-90), .int (-50)⟩,
                stop := ⟨.int 20, .int (-61)⟩, text := none, style := .ofConnector,
                startArrowhead := none, endArrowhead := some "arrow", seed := 0, nonce := 0 }]

theorem preview_eq_of_shift_offCentre :
    ∃ shifted, offCentre.mapM (Element.shift (-7) 33) = .ok shifted ∧
      shifted.map Element.origin = [⟨.int (-72), .int 30⟩, ⟨.int 73, .int (-12)⟩,
        ⟨.int (-12), .int 60⟩, ⟨.int (-97), .int (-17)⟩] ∧
      preview shifted "unicode" false = .ok ("·········►\n               /──────────\\\n" ++
        "               │    b     │\n ┌──────────┐·►\\──────────/\n │    a     │\n" ++
        " └──────────┘") := by
  have hintegral : ∀ e ∈ offCentre, e.isIntegral = true := by decide
  obtain ⟨shifted, hshifted, heq⟩ := preview_eq_of_shift hintegral (-7) 33
  have horigins : List.map Element.origin <$> .ok shifted = (.ok [⟨.int (-72), .int 30⟩,
      ⟨.int 73, .int (-12)⟩, ⟨.int (-12), .int 60⟩, ⟨.int (-97), .int (-17)⟩] :
        Except ArithmeticError (List Point)) := by
    rw [← hshifted]
    decide +kernel
  exact ⟨shifted, hshifted, Except.ok.inj horigins, (heq "unicode" false).trans (by decide +kernel)⟩

end Flowchart
