import Flowchart.Element.Synthesis
import Flowchart.Proofs.Diagram.Closed
import Flowchart.Proofs.Layout.Placed

/-! # What a conversion draws

Every node is drawn as one shape and every edge with a reachable source as one connector, in order.
The two ends of a connector are worked out from the corners of its nodes (`Settings.centerAt`) and
not from their shapes, yet they are the centres of these shapes (`Node.Draws.center_eq`): a closed
diagram has a shape for either end, and a shape stands at the corner that its id has.  Random
numbers touch none of this (`exists_stampSeeds_map`).

The result for a whole text is `exists_diagram_of_convert`. -/

namespace Flowchart

/-! ### Random numbers -/

/-- The second element is the first one with other random numbers. -/
def Element.Redrawn (e e' : Element) : Prop := ∃ seed nonce, e' = e.withSeeds seed nonce

section
variable {σ α : Type} (g : Generator σ)

theorem stampSeeds_append (es es' : List Element) (state : σ) :
    stampSeeds g (es ++ es') state =
      ((stampSeeds g es state).1 ++ (stampSeeds g es' (stampSeeds g es state).2).1,
        (stampSeeds g es' (stampSeeds g es state).2).2) := by
  induction es generalizing state with
  | nil => rfl
  | cons e es ih => simp only [List.cons_append, stampSeeds, ih]

/-- What random numbers do not touch is the same for stamped elements. -/
theorem map_stampSeeds {f : Element → α} (hf : ∀ e seed nonce, f (e.withSeeds seed nonce) = f e)
    (es : List Element) (state : σ) : (stampSeeds g es state).1.map f = es.map f := by
  induction es generalizing state with
  | nil => rfl
  | cons e es ih => rw [stampSeeds, List.map_cons, List.map_cons, ih, hf]

/-- Elements of one sort are stamped into elements of this sort. -/
theorem exists_stampSeeds_map {f : α → Element}
    (hf : ∀ a seed nonce, ∃ a', (f a).withSeeds seed nonce = f a') (l : List α) (state : σ) :
    ∃ stamped, (stampSeeds g (l.map f) state).1 = stamped.map f ∧
      List.Forall₂ (fun a a' => (f a).Redrawn (f a')) l stamped := by
  induction l generalizing state with
  | nil => exact ⟨[], rfl, .nil⟩
  | cons a l ih =>
      obtain ⟨a', ha'⟩ := hf a (g.drawSeed state).1 (g.drawSeed (g.drawSeed state).2).1
      obtain ⟨stamped, hstamped, hall⟩ := ih (g.drawSeed (g.drawSeed state).2).2
      refine ⟨a' :: stamped, ?_, .cons ⟨_, _, ha'.symm⟩ hall⟩
      rw [List.map_cons, List.map_cons, stampSeeds, ← ha', ← hstamped]

end

/-! ### Shapes -/

/-- The shape that a node is drawn as, at the corner of its id. -/
structure Node.Draws (s : Settings) (positions : Positions) (n : Node) (a : ShapeElement) :
    Prop where
  id : a.id = n.id
  text : a.text = n.label
  corner : (⟨a.x, a.y⟩ : Point) = (positions.of? n.id).getD ⟨s.fallbackX, s.fallbackY⟩
  width : a.width = s.nodeWidth
  height : a.height = s.nodeHeight

theorem Node.draws_of_redrawn {s : Settings} {positions : Positions} {n : Node} {a : ShapeElement}
    (h : (Element.shape (n.element s positions)).Redrawn (.shape a)) : n.Draws s positions a := by
  obtain ⟨seed, nonce, h⟩ := h
  obtain rfl := Element.shape.inj h
  exact ⟨rfl, rfl, rfl, rfl, rfl⟩

/-- A shape at a corner has the centre that is worked out from the corner. -/
theorem Node.Draws.center_eq {s : Settings} {positions : Positions} {n : Node} {a : ShapeElement}
    (h : n.Draws s positions a) {corner center : Point} (hcorner : positions.of? n.id = some corner)
    (hcenter : s.centerAt corner = .ok center) : a.center = .ok center := by
  have hxy := h.corner
  rw [hcorner] at hxy
  obtain rfl := hxy
  obtain ⟨halfWidth, hw, hcenter⟩ := exists_of_bind_eq_ok hcenter
  obtain ⟨halfHeight, hh, hcenter⟩ := exists_of_bind_eq_ok hcenter
  obtain ⟨x, hx, hcenter⟩ := exists_of_bind_eq_ok hcenter
  obtain ⟨y, hy, hcenter⟩ := exists_of_bind_eq_ok hcenter
  obtain rfl := Except.ok.inj hcenter
  dsimp only at hx hy
  simp only [ShapeElement.center, h.width, h.height, hw, hh, hx, hy, bind, Except.bind, pure,
    Except.pure]

/-! ### Connectors -/

/-- The connector between the corners of the ends of an edge. -/
structure Edge.Joins (s : Settings) (positions : Positions) (e : Edge) (c : ConnectorElement) :
    Prop where
  start : ∃ corner, positions.of? e.source = some corner ∧ s.centerAt corner = .ok c.start
  stop : ∃ corner, positions.of? e.target = some corner ∧ s.centerAt corner = .ok c.stop
  text : c.text = e.label.filter (· != "")

theorem Edge.joins_of_element {s : Settings} {positions : Positions} {e : Edge} {id : String}
    {start stop : Point} {c : ConnectorElement} (hstart : positions.of? e.source = some start)
    (hstop : positions.of? e.target = some stop) (h : e.element s id start stop = .ok c) :
    e.Joins s positions c := by
  obtain ⟨first, hfirst, h⟩ := exists_of_bind_eq_ok h
  obtain ⟨last, hlast, h⟩ := exists_of_bind_eq_ok h
  obtain rfl := Except.ok.inj h
  exact ⟨⟨start, hstart, hfirst⟩, ⟨stop, hstop, hlast⟩, rfl⟩

theorem Edge.id_of_element {s : Settings} {e : Edge} {id : String} {start stop : Point}
    {c : ConnectorElement} (h : e.element s id start stop = .ok c) : c.id = id := by
  obtain ⟨first, -, h⟩ := exists_of_bind_eq_ok h
  obtain ⟨last, -, h⟩ := exists_of_bind_eq_ok h
  obtain rfl := Except.ok.inj h
  rfl

theorem Edge.Joins.of_redrawn {s : Settings} {positions : Positions} {e : Edge}
    {c c' : ConnectorElement} (h : e.Joins s positions c)
    (hc : (Element.connector c).Redrawn (.connector c')) : e.Joins s positions c' := by
  obtain ⟨seed, nonce, hc⟩ := hc
  obtain rfl := Element.connector.inj hc
  exact ⟨h.start, h.stop, h.text⟩

/-- Both ends of an edge have a point. -/
def Edge.placed (positions : Positions) (e : Edge) : Bool :=
  (positions.of? e.source).isSome && (positions.of? e.target).isSome

/-- An edge is left out unless both of its ends have points. -/
theorem Edge.placed_cases (positions : Positions) (e : Edge) : e.placed positions = false ∨
    ∃ start stop, positions.of? e.source = some start ∧ positions.of? e.target = some stop := by
  unfold placed
  cases positions.of? e.source <;> cases positions.of? e.target <;> simp

theorem Edge.placed_of_eq_some {positions : Positions} {e : Edge} {start stop : Point}
    (hstart : positions.of? e.source = some start)
    (hstop : positions.of? e.target = some stop) : e.placed positions = true := by
  rw [placed, hstart, hstop]
  rfl

theorem connectors_cons_of_not_placed {positions : Positions} {e : Edge}
    (h : e.placed positions = false) (s : Settings) (earlier : List String) (edges : List Edge) :
    connectors s positions earlier (e :: edges) = connectors s positions earlier edges := by
  rw [connectors]
  split
  · next hstart hstop => exact absurd (Edge.placed_of_eq_some hstart hstop) (by simp [h])
  · rfl

/-- An edge is left out, or its connector comes first and its base counts for the connectors after
it. -/
theorem exists_of_connectors_cons {s : Settings} {positions : Positions} {earlier : List String}
    {e : Edge} {edges : List Edge} {arrows : List ConnectorElement}
    (h : connectors s positions earlier (e :: edges) = .ok arrows) :
    (e.placed positions = false ∧ connectors s positions earlier edges = .ok arrows) ∨
    (e.placed positions = true ∧ ∃ c rest, arrows = c :: rest ∧ e.Joins s positions c ∧
      c.id = connectorId e.baseId (earlier.count e.baseId) ∧
      connectors s positions (e.baseId :: earlier) edges = .ok rest) := by
  rcases e.placed_cases positions with hout | ⟨start, stop, hstart, hstop⟩
  · rw [connectors_cons_of_not_placed hout] at h
    exact .inl ⟨hout, h⟩
  · rw [connectors, hstart, hstop] at h
    obtain ⟨c, hc, h⟩ := exists_of_bind_eq_ok h
    obtain ⟨rest, hrest, h⟩ := exists_of_bind_eq_ok h
    obtain rfl := Except.ok.inj h
    exact .inr ⟨Edge.placed_of_eq_some hstart hstop, c, rest, rfl,
      e.joins_of_element hstart hstop hc, e.id_of_element hc, hrest⟩

/-- Exactly the edges whose ends both have a point become connectors. -/
theorem forall₂_joins_of_connectors {s : Settings} {positions : Positions} {earlier : List String}
    {edges : List Edge} {arrows : List ConnectorElement}
    (h : connectors s positions earlier edges = .ok arrows) :
    List.Forall₂ (Edge.Joins s positions) (edges.filter (Edge.placed positions)) arrows := by
  induction edges generalizing earlier arrows with
  | nil =>
      obtain rfl := Except.ok.inj h
      exact .nil
  | cons e edges ih =>
      rcases exists_of_connectors_cons h with ⟨hout, h⟩ | ⟨hin, c, rest, rfl, hjoins, -, h⟩
      · rw [List.filter_cons_of_neg (by simp [hout])]
        exact ih h
      · rw [List.filter_cons_of_pos hin]
        exact .cons hjoins (ih h)

/-! ### The drawing of a diagram -/

/-- The drawing of a list of elements that come from nodes and edges at positions. -/
theorem exists_of_synthesize {σ : Type} {g : Generator σ} {state state' : σ} {s : Settings}
    {nodes : List Node} {edges : List Edge} {positions : Positions} {elements : List Element}
    (h : synthesize g state s nodes edges positions = .ok (elements, state')) :
    ∃ shapes arrows, elements = shapes.map .shape ++ arrows.map .connector ∧
      List.Forall₂ (Node.Draws s positions) nodes shapes ∧
      List.Forall₂ (Edge.Joins s positions) (edges.filter (Edge.placed positions)) arrows := by
  obtain ⟨outlined, houtline, h⟩ := exists_of_bind_eq_ok h
  obtain ⟨arrows, harrows, houtline⟩ := exists_of_bind_eq_ok houtline
  obtain rfl := Except.ok.inj houtline
  have helements : _ = elements := congrArg Prod.fst (Except.ok.inj h)
  rw [stampSeeds_append] at helements
  have hshape : ∀ (a : ShapeElement) seed nonce, ∃ a',
      (Element.shape a).withSeeds seed nonce = .shape a' := fun _ _ _ => ⟨_, rfl⟩
  have hconnector : ∀ (c : ConnectorElement) seed nonce, ∃ c',
      (Element.connector c).withSeeds seed nonce = .connector c' := fun _ _ _ => ⟨_, rfl⟩
  obtain ⟨shapes, hshapes, hdrawn⟩ :=
    exists_stampSeeds_map g hshape (nodes.map fun n => n.element s positions) state
  obtain ⟨drawn, hdrawnArrows, hredrawn⟩ := exists_stampSeeds_map g hconnector arrows
    (stampSeeds g (nodes.map fun n => .shape (n.element s positions)) state).2
  rw [List.map_map] at hshapes
  refine ⟨shapes, drawn, ?_, ?_, ?_⟩
  · rw [← helements, ← hdrawnArrows, ← hshapes]
    rfl
  · rw [List.forall₂_map_left_iff] at hdrawn
    exact hdrawn.imp fun _ _ => Node.draws_of_redrawn
  · refine forall₂_trans ?_ (forall₂_joins_of_connectors harrows) hredrawn
    intro e c c' hjoins hc
    exact hjoins.of_redrawn hc

/-! ### The drawing of a text -/

/-- The shape of a node: its id and its label. -/
structure Node.Shows (n : Node) (a : ShapeElement) : Prop where
  id : a.id = n.id
  text : a.text = n.label

/-- The connector of an edge: it runs between the centres of the shapes of its ends. -/
structure Edge.Connects (shapes : List ShapeElement) (e : Edge) (c : ConnectorElement) : Prop where
  start : ∃ a ∈ shapes, a.id = e.source ∧ a.center = .ok c.start
  stop : ∃ a ∈ shapes, a.id = e.target ∧ a.center = .ok c.stop
  text : c.text = e.label

/-- A corner of an id that a node has is the corner of the shape of this node. -/
theorem exists_center_eq {s : Settings} {positions : Positions} {nodes : List Node}
    {shapes : List ShapeElement} (h : List.Forall₂ (Node.Draws s positions) nodes shapes)
    {id : String} (hid : id ∈ nodes.map Node.id) {center : Point}
    (hcenter : ∃ corner, positions.of? id = some corner ∧ s.centerAt corner = .ok center) :
    ∃ a ∈ shapes, a.id = id ∧ a.center = .ok center := by
  obtain ⟨n, hn, rfl⟩ := List.mem_map.mp hid
  obtain ⟨corner, hcorner, hcenter⟩ := hcenter
  obtain ⟨a, ha, hdraws⟩ := exists_mem_of_forall₂ h hn
  exact ⟨a, ha, hdraws.id, hdraws.center_eq hcorner hcenter⟩

/-- In a closed diagram the connectors run between shapes. -/
theorem Edge.Joins.connects {s : Settings} {positions : Positions} {d : Diagram}
    {shapes : List ShapeElement} (hclosed : Registry.Closed d.nodes d.edges)
    (hshapes : List.Forall₂ (Node.Draws s positions) d.nodes shapes) {e : Edge} (he : e ∈ d.edges)
    {c : ConnectorElement} (h : e.Joins s positions c) : e.Connects shapes c where
  start := exists_center_eq hshapes (hclosed.source e he) h.start
  stop := exists_center_eq hshapes (hclosed.target e he) h.stop
  text := by
    rw [h.text]
    cases hlabel : e.label with
    | none => rfl
    | some label =>
        have hne : label ≠ "" := by
          rintro rfl
          exact hclosed.label e he hlabel
        rw [Option.filter_some, if_pos (by simpa using hne)]

theorem Diagram.Reaches.target {d : Diagram} {e : Edge} (he : e ∈ d.edges)
    (h : d.Reaches e.source) : d.Reaches e.target := by
  obtain ⟨root, hroot, k, hpath⟩ := h
  exact ⟨root, hroot, k + 1, hpath.step he⟩

theorem exists_of_convert {σ : Type} {g : Generator σ} {state state' : σ} {text : String}
    {s : Settings} {elements : List Element}
    (h : convert text s g state = .ok (elements, state')) :
    ∃ d positions, Diagram.ofText text = .ok d ∧ d.positions s = .ok positions ∧
      synthesize g state s d.nodes d.edges positions = .ok (elements, state') := by
  obtain ⟨d, hd, h⟩ := exists_of_bind_eq_ok h
  obtain ⟨positions, hpositions, hdrawn⟩ := exists_of_bind_eq_ok (eq_ok_of_mapError_eq_ok h)
  exact ⟨d, positions, eq_ok_of_mapError_eq_ok hd, hpositions, hdrawn⟩

/-- **What a conversion draws.**  The elements are a shape for each node, in the order of the nodes,
and after them a connector for each edge whose source the root reaches, in the order of the edges.
A connector runs from the centre of the shape of its source to the centre of the shape of its
target; an edge is dropped only for its source, since the target of any other edge has a point. -/
theorem exists_diagram_of_convert {σ : Type} {g : Generator σ} {state state' : σ} {text : String}
    {s : Settings} {elements : List Element}
    (h : convert text s g state = .ok (elements, state')) :
    ∃ d shapes arrows, Diagram.ofText text = .ok d ∧
      elements = shapes.map .shape ++ arrows.map .connector ∧
      List.Forall₂ Node.Shows d.nodes shapes ∧
      (shapes.map ShapeElement.id).Nodup ∧
      List.Forall₂ (Edge.Connects shapes) (d.edges.filter fun e => d.Reaches e.source) arrows ∧
      ∃ positions, d.positions s = .ok positions ∧
        ∀ e ∈ d.edges, d.Reaches e.source → (positions.of? e.target).isSome := by
  obtain ⟨d, positions, htext, hpositions, hdrawn⟩ := exists_of_convert h
  obtain ⟨shapes, arrows, helements, hshapes, harrows⟩ := exists_of_synthesize hdrawn
  have hclosed := Diagram.closed_of_ofText htext
  have htarget : ∀ e ∈ d.edges, d.Reaches e.source → (positions.of? e.target).isSome :=
    fun e he hsource => (Diagram.isSome_of?_iff_reaches hpositions _).mpr (hsource.target he)
  refine ⟨d, shapes, arrows, htext, helements, ?_, ?_, ?_, positions, hpositions, htarget⟩
  · exact hshapes.imp fun n a hdraws => ⟨hdraws.id, hdraws.text⟩
  · rw [← map_eq_map_of_forall₂ hshapes fun n a hdraws => hdraws.id.symm]
    exact hclosed.nodup
  · have hfilter : (d.edges.filter fun e => d.Reaches e.source) =
        d.edges.filter (Edge.placed positions) := by
      apply List.filter_congr
      intro e he
      have hsource := Diagram.isSome_of?_iff_reaches hpositions e.source
      by_cases hreach : d.Reaches e.source
      · simp [Edge.placed, hreach, hsource, htarget e he hreach]
      · simp [Edge.placed, hreach, hsource]
    rw [hfilter]
    have hmem : ∀ e ∈ d.edges.filter (Edge.placed positions), e ∈ d.edges :=
      fun e he => (List.mem_filter.mp he).1
    have hjoins := (List.forall₂_and_left _ _).mpr ⟨hmem, harrows⟩
    exact hjoins.imp fun e c h => h.2.connects hclosed hshapes h.1

/-- A text with a cycle, an edge given twice and an edge from a node that nothing leads to. -/
def sketch : String := "graph LR\nA\x7bStart\x7d --> B(Go)\nA --> B\nB -->|yes| A\nC((Alone)) --> A"

theorem exists_diagram_of_convert_sketch :
    ∃ elements state', convert sketch .standard (.progression 7) 0 = .ok (elements, state') ∧
      elements.map Element.id = ["A", "B", "C", "arrow-A-B", "arrow-A-B-1", "arrow-B-A"] ∧
      ∃ d shapes arrows, Diagram.ofText sketch = .ok d ∧
        elements = shapes.map .shape ++ arrows.map .connector ∧
        List.Forall₂ Node.Shows d.nodes shapes ∧
        (shapes.map ShapeElement.id).Nodup ∧
        List.Forall₂ (Edge.Connects shapes) (d.edges.filter fun e => d.Reaches e.source) arrows ∧
        ∃ positions, d.positions .standard = .ok positions ∧
          ∀ e ∈ d.edges, d.Reaches e.source → (positions.of? e.target).isSome := by
  have hdrawn : (fun drawn => drawn.1.map Element.id) <$>
      convert sketch .standard (.progression 7) 0 =
        .ok ["A", "B", "C", "arrow-A-B", "arrow-A-B-1", "arrow-B-A"] := by
    decide +kernel
  obtain ⟨⟨elements, state'⟩, h, hids⟩ := exists_of_map_eq_ok hdrawn
  exact ⟨elements, state', h, hids, exists_diagram_of_convert h⟩

end Flowchart
