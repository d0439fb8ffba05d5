import Flowchart.Proofs.Element.Conversion

/-! # Elements have distinct ids

The id of a connector is put together from the ids of its ends, with hyphens between them and the
number of earlier connectors with the same ends.  No identifier holds a hyphen, so that all of these
can be read off the id again (`Edge.connectorId_inj`), and a shape never has the id of a connector.
As the number of earlier ones grows with each connector of the same ends, no id comes twice
(`nodup_connectorIds`).

The result for a whole text is `nodup_map_id_of_convert`. -/

namespace Flowchart

open Grammar

/-! ### Ids of connectors -/

/-- The ends of an edge have identifiers. -/
structure Edge.Named (e : Edge) : Prop where
  source : IsId e.source.toList
  target : IsId e.target.toList

/-- What follows the base in the id of a connector. -/
def repeatMark (repeats : Nat) : List Char :=
  if repeats = 0 then [] else '-' :: (toString repeats).toList

theorem stops_repeatMark (repeats : Nat) : Stops isIdChar (repeatMark repeats) := by
  unfold repeatMark
  split
  · exact stops_nil _
  · exact stops_cons.mpr (by decide)

theorem toList_toString_inj {k k' : Nat} (h : (toString k).toList = (toString k').toList) :
    k = k' := by
  rw [Nat.toString_eq_repr, Nat.toString_eq_repr, Nat.toList_repr, Nat.toList_repr] at h
  have hvalue := congrArg (fun digits => Nat.ofDigitChars 10 digits 0) h
  simpa using hvalue

theorem repeatMark_inj {k k' : Nat} (h : repeatMark k = repeatMark k') : k = k' := by
  unfold repeatMark at h
  split at h <;> split at h
  · next hk hk' => rw [hk, hk']
  · cases h
  · cases h
  · exact toList_toString_inj (List.cons.inj h).2

theorem toList_connectorId (e : Edge) (k : Nat) :
    (connectorId e.baseId k).toList = "arrow-".toList ++
      (e.source.toList ++ '-' :: (e.target.toList ++ repeatMark k)) := by
  have hhyphen : "-".toList = ['-'] := rfl
  unfold connectorId repeatMark
  split <;> simp [Edge.baseId, hhyphen]

/-- The id of a connector tells the ends of its edge and how many earlier ones have the same. -/
theorem Edge.connectorId_inj {e e' : Edge} (he : e.Named) (he' : e'.Named) {k k' : Nat}
    (h : connectorId e.baseId k = connectorId e'.baseId k') : e.baseId = e'.baseId ∧ k = k' := by
  have hchars := congrArg String.toList h
  rw [toList_connectorId, toList_connectorId] at hchars
  have hends := List.append_cancel_left hchars
  have hhyphen : ∀ rest, Stops isIdChar ('-' :: rest) := fun _ => stops_cons.mpr (by decide)
  obtain ⟨hsource, hrest⟩ := run_append_inj he.source.2 he'.source.2 (hhyphen _) (hhyphen _) hends
  obtain ⟨htarget, hmark⟩ := run_append_inj he.target.2 he'.target.2 (stops_repeatMark k)
    (stops_repeatMark k') (List.cons.inj hrest).2
  refine ⟨?_, repeatMark_inj hmark⟩
  rw [baseId, baseId, String.toList_injective hsource, String.toList_injective htarget]

theorem ne_connectorId_of_isId {id : String} (hid : IsId id.toList) (e : Edge) (k : Nat) :
    id ≠ connectorId e.baseId k := by
  rintro rfl
  have hhyphen : '-' ∈ (connectorId e.baseId k).toList := by
    rw [toList_connectorId]
    exact List.mem_append_left _ (by decide)
  exact absurd (hid.2 _ hhyphen) (by decide)

/-- The ids of the connectors of some edges.  `earlier` holds the bases of the connectors so far. -/
def connectorIds (earlier : List String) : List Edge → List String
  | [] => []
  | e :: rest =>
    connectorId e.baseId (earlier.count e.baseId) :: connectorIds (e.baseId :: earlier) rest

/-- Later connectors count at least the earlier ones. -/
theorem exists_of_mem_connectorIds {earlier : List String} {edges : List Edge} {id : String}
    (h : id ∈ connectorIds earlier edges) :
    ∃ e ∈ edges, ∃ k, earlier.count e.baseId ≤ k ∧ id = connectorId e.baseId k := by
  induction edges generalizing earlier with
  | nil => cases h
  | cons e edges ih =>
      rcases List.mem_cons.mp h with rfl | h
      · exact ⟨e, List.mem_cons_self, _, Nat.le_refl _, rfl⟩
      · obtain ⟨e', he', k, hk, rfl⟩ := ih h
        have hcount : earlier.count e'.baseId ≤ (e.baseId :: earlier).count e'.baseId :=
          (List.sublist_cons_self _ _).count_le _
        exact ⟨e', List.mem_cons_of_mem _ he', k, Nat.le_trans hcount hk, rfl⟩

theorem nodup_connectorIds (earlier : List String) {edges : List Edge}
    (hnamed : ∀ e ∈ edges, e.Named) : (connectorIds earlier edges).Nodup := by
  induction edges generalizing earlier with
  | nil => exact List.nodup_nil
  | cons e edges ih =>
      have hrest : ∀ e ∈ edges, e.Named := fun e he => hnamed e (List.mem_cons_of_mem _ he)
      refine List.nodup_cons.mpr ⟨?_, ih _ hrest⟩
      intro hmem
      obtain ⟨e', he', k, hk, heq⟩ := exists_of_mem_connectorIds hmem
      obtain ⟨hbase, hcount⟩ := e.connectorId_inj (hnamed e List.mem_cons_self) (hrest e' he') heq
      -- The first connector of these ends counts one less than every later one.
      rw [← hbase, List.count_cons_self] at hk
      omega

/-! ### Ids of a drawing -/

theorem map_id_of_connectors {s : Settings} {positions : Positions} {earlier : List String}
    {edges : List Edge} {arrows : List ConnectorElement}
    (h : connectors s positions earlier edges = .ok arrows) :
    arrows.map ConnectorElement.id =
      connectorIds earlier (edges.filter (Edge.placed positions)) := by
  induction edges generalizing earlier arrows with
  | nil =>
      obtain rfl := Except.ok.inj h
      rfl
  | cons e edges ih =>
      rcases exists_of_connectors_cons h with ⟨hout, h⟩ | ⟨hin, c, rest, rfl, -, hid, h⟩
      · rw [List.filter_cons_of_neg (by simp [hout])]
        exact ih h
      · rw [List.filter_cons_of_pos hin, List.map_cons, connectorIds, hid, ih h]

/-- The ids of a drawing: those of the nodes, and after them those of the connectors. -/
theorem map_id_of_synthesize {σ : Type} {g : Generator σ} {state state' : σ} {s : Settings}
    {nodes : List Node} {edges : List Edge} {positions : Positions} {elements : List Element}
    (h : synthesize g state s nodes edges positions = .ok (elements, state')) :
    elements.map Element.id = nodes.map Node.id ++
      connectorIds [] (edges.filter (Edge.placed positions)) := by
  obtain ⟨outlined, houtline, h⟩ := exists_of_bind_eq_ok h
  obtain ⟨arrows, harrows, houtline⟩ := exists_of_bind_eq_ok houtline
  obtain rfl := Except.ok.inj houtline
  have helements : _ = elements := congrArg Prod.fst (Except.ok.inj h)
  rw [← helements, map_stampSeeds g Element.id_withSeeds, List.map_append, List.map_map,
    List.map_map, ← map_id_of_connectors harrows]
  rfl

theorem Diagram.isId_of_ofText {text : String} {d : Diagram} (h : ofText text = .ok d) :
    ∀ id ∈ d.nodes.map Node.id, IsId id.toList := by
  intro id hid
  obtain ⟨lines, hnodes, -⟩ := exists_source_of_ofText h
  rw [hnodes] at hid
  exact Registry.isId_of_mem_ofLines Rules.detached_standard hid

/-- **Elements have distinct ids.**  No id comes twice in the drawing of a text: not among the
shapes, not among the connectors, however many of them have the same ends and whatever stands
between them, and not as that of a shape and that of a connector. -/
theorem nodup_map_id_of_convert {σ : Type} {g : Generator σ} {state state' : σ} {text : String}
    {s : Settings} {elements : List Element}
    (h : convert text s g state = .ok (elements, state')) : (elements.map Element.id).Nodup := by
  obtain ⟨d, positions, htext, -, hdrawn⟩ := exists_of_convert h
  have hclosed := Diagram.closed_of_ofText htext
  have hids := Diagram.isId_of_ofText htext
  have hnamed : ∀ e ∈ d.edges.filter (Edge.placed positions), e.Named := by
    intro e he
    have hmem := (List.mem_filter.mp he).1
    exact ⟨hids _ (hclosed.source e hmem), hids _ (hclosed.target e hmem)⟩
  rw [map_id_of_synthesize hdrawn, List.nodup_append]
  refine ⟨hclosed.nodup, nodup_connectorIds [] hnamed, ?_⟩
  intro id hid id' hid'
  obtain ⟨e, -, k, -, rfl⟩ := exists_of_mem_connectorIds hid'
  exact ne_connectorId_of_isId (hids id hid) e k

/-- A text with edges that are given again after others, and with nodes that are named like parts of
the ids of connectors. -/
def repeated : String :=
  "graph TD\nA --> B\nB --> A\nA -->|again| B\nB ==> 1\nA --> arrow\nA --- B\nB --> 1"

theorem nodup_map_id_of_convert_repeated :
    ∃ elements state', convert repeated .standard (.progression 7) 0 = .ok (elements, state') ∧
      elements.map Element.id = ["A", "B", "1", "arrow", "arrow-A-B", "arrow-B-A", "arrow-A-B-1",
        "arrow-B-1", "arrow-A-arrow", "arrow-A-B-2", "arrow-B-1-1"] ∧
      (elements.map Element.id).Nodup := by
  have hdrawn : (fun drawn => drawn.1.map Element.id) <$>
      convert repeated .standard (.progression 7) 0 = .ok ["A", "B", "1", "arrow", "arrow-A-B",
        "arrow-B-A", "arrow-A-B-1", "arrow-B-1", "arrow-A-arrow", "arrow-A-B-2",
        "arrow-B-1-1"] := by
    decide +kernel
  obtain ⟨⟨elements, state'⟩, h, hids⟩ := exists_of_map_eq_ok hdrawn
  exact ⟨elements, state', h, hids, nodup_map_id_of_convert h⟩

end Flowchart
