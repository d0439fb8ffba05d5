import Flowchart.Proofs.Element.Conversion

/-! # Draws of elements

A generator yields one draw after the other.  The elements take them in order, two each: the
element at place `i` has draw `2 i` as its seed and draw `2 i + 1` as its nonce (`stampSeeds_eq`),
and nothing else of it comes from a draw (`map_unseeded_synthesize`).  An edge that is left out
leaves no trace, in the elements or in the generator, wherever it stands
(`synthesize_filter_placed`).

What the elements are is settled before the first draw.  They may as well draw while they are made,
one by one (`run_synthesizeInTurn`): no draw depends on an element, and a failure gives no state.

The result for all runs is `synthesize_draws`. -/

namespace Flowchart

/-! ### Draws -/

namespace Generator

variable {σ : Type} (g : Generator σ)

/-- The state after a number of draws. -/
def after (state : σ) : Nat → σ
  | 0 => state
  | count + 1 => after (g.drawSeed state).2 count

/-- The draw at a place, the first one being at zero. -/
def drawAt (state : σ) (place : Nat) : Nat := (g.drawSeed (g.after state place)).1

end Generator

/-- An element with the two draws for its place. -/
def Element.stamped {σ : Type} (g : Generator σ) (state : σ) (place : Nat) (e : Element) :
    Element :=
  e.withSeeds (g.drawAt state (2 * place)) (g.drawAt state (2 * place + 1))

section
variable {σ : Type} (g : Generator σ)

theorem stampSeeds_cons (e : Element) (es : List Element) (state : σ) :
    stampSeeds g (e :: es) state = (e.stamped g state 0 :: (stampSeeds g es (g.after state 2)).1,
      (stampSeeds g es (g.after state 2)).2) := rfl

/-- Stamped elements have the draws for their places. -/
theorem stampSeeds_eq (es : List Element) (state : σ) : stampSeeds g es state =
    (es.mapIdx (Element.stamped g state), g.after state (2 * es.length)) := by
  induction es generalizing state with
  | nil => rfl
  | cons e es ih =>
      rw [stampSeeds_cons, ih, List.mapIdx_cons, List.length_cons, Nat.mul_succ]
      rfl

end

/-! ### Edges that are left out -/

theorem connectors_filter_placed (s : Settings) (positions : Positions) (earlier : List String)
    (edges : List Edge) : connectors s positions earlier (edges.filter (Edge.placed positions)) =
      connectors s positions earlier edges := by
  induction edges generalizing earlier with
  | nil => rfl
  | cons e edges ih =>
      rcases e.placed_cases positions with hout | ⟨start, stop, hstart, hstop⟩
      · rw [List.filter_cons_of_neg (by simp [hout]), connectors_cons_of_not_placed hout, ih]
      · rw [List.filter_cons_of_pos (Edge.placed_of_eq_some hstart hstop), connectors, connectors,
          hstart, hstop]
        simp only [ih]

theorem synthesize_filter_placed {σ : Type} (g : Generator σ) (state : σ) (s : Settings)
    (nodes : List Node) (edges : List Edge) (positions : Positions) :
    synthesize g state s nodes (edges.filter (Edge.placed positions)) positions =
      synthesize g state s nodes edges positions := by
  rw [synthesize, outline, connectors_filter_placed]
  rfl

/-! ### Drawing while elements are made -/

/-- A step that draws from a generator and may fail. -/
abbrev Drawing (σ α : Type) := StateT σ (Except ArithmeticError) α

section
variable {σ : Type} (g : Generator σ) (s : Settings) (positions : Positions)

/-- An element with the next two draws. -/
def drawElement (e : Element) : Drawing σ Element := do
  let seed ← modifyGet g.drawSeed
  let nonce ← modifyGet g.drawSeed
  return e.withSeeds seed nonce

/-- The connectors of edges, each of which draws as soon as it is made. -/
def connectorsInTurn (earlier : List String) : List Edge → Drawing σ (List Element)
  | [] => pure []
  | e :: rest =>
    match positions.of? e.source, positions.of? e.target with
    | some start, some stop => do
      let c ← e.element s (connectorId e.baseId (earlier.count e.baseId)) start stop
      let c ← drawElement g (.connector c)
      return c :: (← connectorsInTurn (e.baseId :: earlier) rest)
    | _, _ => connectorsInTurn earlier rest

/-- The elements of nodes and edges, each of which draws as soon as it is made. -/
def synthesizeInTurn (nodes : List Node) (edges : List Edge) : Drawing σ (List Element) := do
  let shapes ← nodes.mapM fun n => drawElement g (.shape (n.element s positions))
  let arrows ← connectorsInTurn g s positions [] edges
  return shapes ++ arrows

theorem run_drawElement_bind {α : Type} (e : Element) (f : Element → Drawing σ α) (state : σ) :
    (drawElement g e >>= f).run state = (f (e.stamped g state 0)).run (g.after state 2) := rfl

theorem run_mapM_drawElement (es : List Element) (state : σ) :
    (es.mapM (drawElement g)).run state = .ok (stampSeeds g es state) := by
  induction es generalizing state with
  | nil => rfl
  | cons e es ih =>
      rw [List.mapM_cons, run_drawElement_bind, StateT.run_bind, ih]
      rfl

variable {g s positions} {e : Edge}

theorem connectorsInTurn_cons_of_not_placed (h : e.placed positions = false)
    (earlier : List String) (edges : List Edge) :
    connectorsInTurn g s positions earlier (e :: edges) =
      connectorsInTurn g s positions earlier edges := by
  rw [connectorsInTurn]
  split
  · next hstart hstop => exact absurd (Edge.placed_of_eq_some hstart hstop) (by simp [h])
  · rfl

/-- Connectors that draw in turn have the draws that they have when all of them are made before. -/
theorem run_connectorsInTurn (earlier : List String) (edges : List Edge) (state : σ) :
    (connectorsInTurn g s positions earlier edges).run state =
      (fun arrows => stampSeeds g (arrows.map .connector) state) <$>
        connectors s positions earlier edges := by
  induction edges generalizing earlier state with
  | nil => rfl
  | cons e edges ih =>
      rcases e.placed_cases positions with hout | ⟨start, stop, hstart, hstop⟩
      · rw [connectorsInTurn_cons_of_not_placed hout, connectors_cons_of_not_placed hout, ih]
      · rw [connectorsInTurn, connectors, hstart, hstop]
        dsimp only
        cases e.element s (connectorId e.baseId (earlier.count e.baseId)) start stop with
        | error fault => rfl
        | ok c =>
            show StateT.run (drawElement g (.connector c) >>= fun c =>
              connectorsInTurn g s positions (e.baseId :: earlier) edges >>= fun rest =>
                pure (c :: rest)) state = _
            rw [run_drawElement_bind, StateT.run_bind, ih]
            cases connectors s positions (e.baseId :: earlier) edges <;> rfl

/-- It makes no difference whether elements draw in turn or after all of them are made. -/
theorem run_synthesizeInTurn (nodes : List Node) (edges : List Edge) (state : σ) :
    (synthesizeInTurn g s positions nodes edges).run state =
      synthesize g state s nodes edges positions := by
  have hshapes : (nodes.mapM fun n => drawElement g (.shape (n.element s positions))) =
      (nodes.map fun n => Element.shape (n.element s positions)).mapM (drawElement g) := by
    rw [List.mapM_map]
    rfl
  rw [synthesizeInTurn, hshapes, StateT.run_bind, run_mapM_drawElement, synthesize, outline]
  generalize nodes.map (fun n => Element.shape (n.element s positions)) = shapes
  show StateT.run (connectorsInTurn g s positions [] edges >>= fun arrows =>
    pure ((stampSeeds g shapes state).1 ++ arrows)) (stampSeeds g shapes state).2 = _
  rw [StateT.run_bind, run_connectorsInTurn]
  cases connectors s positions [] edges with
  | error fault => rfl
  | ok arrows =>
      exact congrArg Except.ok (stampSeeds_append g shapes (arrows.map .connector) state).symm

end

/-! ### Runs -/

/-- An element without its random numbers. -/
def Element.unseeded (e : Element) : Element := e.withSeeds 0 0

theorem unseeded_withSeeds (e : Element) (seed nonce : Int) :
    (e.withSeeds seed nonce).unseeded = e.unseeded := by
  cases e <;> rfl

/-- But for random numbers, elements are those of the outline. -/
theorem map_unseeded_synthesize {σ : Type} (g : Generator σ) (state : σ) (s : Settings)
    (nodes : List Node) (edges : List Edge) (positions : Positions) :
    (fun drawn => drawn.1.map Element.unseeded) <$> synthesize g state s nodes edges positions =
      List.map Element.unseeded <$> outline s nodes edges positions := by
  rw [synthesize]
  cases outline s nodes edges positions with
  | error fault => rfl
  | ok outlined =>
      exact congrArg Except.ok (map_stampSeeds g unseeded_withSeeds outlined state)

/-- **Elements draw in order.**  The element at place `i` has draw `2 i` as its seed and draw
`2 i + 1` as its nonce, and there are two draws for each element.  An edge without points at both
ends might as well not be there, and elements might as well draw one by one while they are made.
Whatever draws, the elements are the same but for their random numbers, and so is any failure. -/
theorem synthesize_draws {σ σ' : Type} (g : Generator σ) (state : σ) (g' : Generator σ')
    (state' : σ') (s : Settings) (nodes : List Node) (edges : List Edge) (positions : Positions) :
    (∀ elements final, synthesize g state s nodes edges positions = .ok (elements, final) →
      (∀ i e, elements[i]? = some e →
        e.seeds = ((g.drawAt state (2 * i) : Int), (g.drawAt state (2 * i + 1) : Int))) ∧
      final = g.after state (2 * elements.length) ∧
      elements.length = nodes.length + (edges.filter (Edge.placed positions)).length) ∧
    synthesize g state s nodes (edges.filter (Edge.placed positions)) positions =
      synthesize g state s nodes edges positions ∧
    (synthesizeInTurn g s positions nodes edges).run state =
      synthesize g state s nodes edges positions ∧
    (fun drawn => drawn.1.map Element.unseeded) <$> synthesize g' state' s nodes edges positions =
      (fun drawn => drawn.1.map Element.unseeded) <$>
        synthesize g state s nodes edges positions := by
  refine ⟨?_, synthesize_filter_placed .., run_synthesizeInTurn .., ?_⟩
  · intro elements final h
    obtain ⟨shapes, arrows, helements, hshapes, harrows⟩ := exists_of_synthesize h
    obtain ⟨outlined, -, hdrawn⟩ := exists_of_bind_eq_ok h
    have hstamped := (Except.ok.inj hdrawn).symm
    rw [stampSeeds_eq, Prod.mk.injEq] at hstamped
    obtain ⟨hstamped, rfl⟩ := hstamped
    refine ⟨?_, ?_, ?_⟩
    · intro i e he
      rw [hstamped, List.getElem?_mapIdx, Option.map_eq_some_iff] at he
      obtain ⟨e, -, rfl⟩ := he
      exact e.seeds_withSeeds _ _
    · rw [hstamped, List.length_mapIdx]
    · rw [helements, List.length_append, List.length_map, List.length_map, hshapes.length_eq,
        harrows.length_eq]
  · rw [map_unseeded_synthesize, map_unseeded_synthesize]

/-- Nodes, the last of which has no point at `sparsePoints`. -/
def sparseNodes : List Node := ["A", "B", "C"].map Node.implicit

/-- Points for two nodes. -/
def sparsePoints : Positions := [("A", ⟨0, 0⟩), ("B", ⟨0, 150⟩)]

/-- Edges that are left out before, between and after the others. -/
def sparseEdges : List Edge :=
  [("C", "A"), ("A", "B"), ("B", "C"), ("A", "B"), ("C", "C")].map fun ends =>
    ⟨ends.1, ends.2, none, .arrow⟩

theorem synthesize_draws_sparse : ∃ elements final,
    synthesize (.ofStream fun n => n * n) 3 .standard sparseNodes sparseEdges sparsePoints =
      .ok (elements, final) ∧
    elements.map Element.id = ["A", "B", "C", "arrow-A-B", "arrow-A-B-1"] ∧
    (∀ e, elements[4]? = some e → e.seeds = (121, 144)) ∧ final = 13 := by
  have hrun : (fun drawn => drawn.1.map Element.id) <$>
      synthesize (.ofStream fun n => n * n) 3 .standard sparseNodes sparseEdges sparsePoints =
        .ok ["A", "B", "C", "arrow-A-B", "arrow-A-B-1"] := by
    decide +kernel
  obtain ⟨⟨elements, final⟩, h, hids⟩ := exists_of_map_eq_ok hrun
  obtain ⟨hdraws, -⟩ := synthesize_draws (.ofStream fun n => n * n) 3 (.progression 7) 0 .standard
    sparseNodes sparseEdges sparsePoints
  obtain ⟨hseeds, hfinal, hlength⟩ := hdraws elements final h
  have hcount : elements.length = 5 := hlength
  refine ⟨elements, final, h, hids, hseeds 4, ?_⟩
  rw [hfinal, hcount]
  rfl

end Flowchart
