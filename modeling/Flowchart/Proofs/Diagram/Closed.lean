import Flowchart.Proofs.Diagram.History

/-! # Diagrams that are read are closed

The ends of an edge are nodes.  A line mentions an end on its own unless it declares a node at the
same column; with detached rules both are the longest identifier at that column, so the end is
mentioned either way (`Statement.mem_ids_ofContent_of_mem_endpoints`).  The registry has a node for
every id that is mentioned (`Registry.mem_map_id_ofLines`), and no id is entered twice; hence it is
closed (`Registry.closed_ofLines`), and so is the diagram of a text (`Diagram.closed_of_ofText`).

The result for a source, with the rules of the language or any others that are detached, is
`Diagram.ends_mem_ids_of_ofSource`. -/

namespace Flowchart

open Grammar

/-- What a rule finds starts with the longest identifier at its column, and no identifier runs into
a glyph. -/
structure Grammar.Rules.Detached (rules : Rules) : Prop where
  shapes : ∀ rule ∈ rules.shapes, rule.Detached
  glyph_ne_nil : ∀ rule ∈ rules.connectors, rule.glyph ≠ []
  stops_glyph : ∀ rule ∈ rules.connectors, Stops isIdChar rule.glyph

theorem Grammar.Rules.detached_standard : Rules.standard.Detached where
  shapes rule hrule := by
    obtain ⟨bracket, hbracket, rfl⟩ := List.mem_map.mp hrule
    exact (BracketRule.detached_of_mem_standard hbracket).ofBracket
  glyph_ne_nil := clear_standard.ne_nil
  stops_glyph rule hrule := .of_forall_mem (fun _ h => (isGlyphChar_iff.mp h).1)
    (clear_standard.glyphChar rule hrule)

/-! ### Mentions of the ends -/

namespace Grammar.EdgeReading

variable {rules : List ConnectorRule} {line : List Char} {r : EdgeReading}

/-- Each end of an edge is the longest identifier at its column. -/
theorem id_eq_of_mem_endpoints (hne : ∀ rule ∈ rules, rule.glyph ≠ [])
    (hstops : ∀ rule ∈ rules, Stops isIdChar rule.glyph) (h : readEdge? rules line = some r)
    {m : Mention} (hm : m ∈ Statement.endpoints r) :
    m.id = String.ofList ((line.drop m.column).takeWhile isIdChar) := by
  obtain ⟨hfits, tail, rfl, htail⟩ := exists_of_readEdge? h
  simp only [Statement.endpoints, List.mem_cons, List.not_mem_nil, or_false] at hm
  rcases hm with rfl | rfl
  · obtain ⟨rule, hrule, hglyph⟩ := List.mem_map.mp hfits.glyph
    have hrest : Stops isIdChar (r.glyph ++ r.labelPart (r.target ++ tail)) := by
      rw [← hglyph]
      exact (hstops rule hrule).append_of_ne_nil (hne rule hrule) _
    rw [List.drop_zero, text_append_eq_parts,
      takeWhile_run_append hfits.source.2 (hfits.stops_shapePart hrest)]
  · rw [drop_targetColumn, takeWhile_run_append hfits.target.2 htail]

end Grammar.EdgeReading

namespace Grammar.Statement

variable {rules : Rules} {content : List Char} {e : Edge}

/-- The ids that a statement mentions. -/
def ids (s : Statement) : List String := s.mentions.map Mention.id

theorem mem_ids_ofContent_of_mem_endpoints (hr : rules.Detached) {r : EdgeReading}
    (h : readEdge? rules.connectors content = some r) {m : Mention} (hm : m ∈ endpoints r) :
    m.id ∈ (ofContent rules content).ids := by
  by_cases hd : ∀ d ∈ declared rules content, d.column ≠ m.column
  · exact List.mem_map_of_mem ((mem_mentions_ofContent m).mpr (.inr ⟨r, h, hm, hd⟩))
  · -- A declaration at the same column has the same id.
    simp only [not_forall, not_not] at hd
    obtain ⟨d, hd, hcolumn⟩ := hd
    obtain ⟨rule, hrule, f, hf, rfl⟩ := exists_find_of_mem_declared hd
    have hid : m.id = (f.declaration rule.shape).mention.id := by
      rw [EdgeReading.id_eq_of_mem_endpoints hr.glyph_ne_nil hr.stops_glyph h hm, ← hcolumn]
      exact ((hr.shapes rule hrule).id_eq content f hf).symm
    rw [hid]
    exact List.mem_map_of_mem ((mem_mentions_ofContent _).mpr (.inl (List.mem_map_of_mem hd)))

/-- What the edge of a statement needs: its ends are mentioned, and its label is not empty. -/
structure Sound (s : Statement) : Prop where
  source : ∀ e ∈ s.edge, e.source ∈ s.ids
  target : ∀ e ∈ s.edge, e.target ∈ s.ids
  label : ∀ e ∈ s.edge, e.label ≠ some ""

theorem sound_ofContent (hr : rules.Detached) (content : List Char) :
    (ofContent rules content).Sound := by
  have hedge : ∀ e ∈ (ofContent rules content).edge, ∃ r,
      readEdge? rules.connectors content = some r ∧ r.edge rules.connectors = e := by
    intro e he
    exact Option.map_eq_some_iff.mp he
  refine ⟨?_, ?_, ?_⟩
  · intro e he
    obtain ⟨r, h, rfl⟩ := hedge e he
    exact mem_ids_ofContent_of_mem_endpoints hr h List.mem_cons_self
  · intro e he
    obtain ⟨r, h, rfl⟩ := hedge e he
    exact mem_ids_ofContent_of_mem_endpoints hr h (List.mem_cons_of_mem _ List.mem_cons_self)
  · intro e he
    obtain ⟨r, h, rfl⟩ := hedge e he
    intro hlabel
    have := (Option.filter_eq_some_iff.mp hlabel).2
    simp at this

theorem sound_ofLine (hr : rules.Detached) (line : String) : (ofLine rules line).Sound := by
  simp only [ofLine]
  split
  · exact ⟨by simp, by simp, by simp⟩
  · exact sound_ofContent hr _

theorem isId_of_mem_ids_ofLine (hr : rules.Detached) {line id : String}
    (h : id ∈ (ofLine rules line).ids) : IsId id.toList := by
  obtain ⟨m, hm, rfl⟩ := List.mem_map.mp h
  simp only [ofLine] at hm
  split at hm
  · cases hm
  · rcases (mem_mentions_ofContent m).mp hm with hm | ⟨r, hread, hm, -⟩
    · obtain ⟨d, hd, rfl⟩ := List.mem_map.mp hm
      obtain ⟨rule, hrule, f, hf, rfl⟩ := exists_find_of_mem_declared hd
      exact (hr.shapes rule hrule).isId _ f hf
    · obtain ⟨hfits, -⟩ := exists_of_readEdge? hread
      simp only [endpoints, List.mem_cons, List.not_mem_nil, or_false] at hm
      rcases hm with rfl | rfl
      · exact (String.toList_ofList).symm ▸ hfits.source
      · exact (String.toList_ofList).symm ▸ hfits.target

end Grammar.Statement

/-! ### The registry -/

namespace Registry

variable {rules : Rules} {lines : List String}

/-- The ids of the nodes are those that the lines mention. -/
theorem mem_map_id_ofLines {id : String} :
    id ∈ (ofLines rules lines).nodes.map Node.id ↔
      ∃ line ∈ lines, id ∈ (Statement.ofLine rules line).ids := by
  rw [nodes_ofLines, map_id_nodesOf, List.mem_eraseDups, history, List.map_flatMap,
    List.mem_flatMap]
  rfl

/-- Ids are distinct, the ends of edges are nodes, and no label is empty. -/
structure Closed (nodes : List Node) (edges : List Edge) : Prop where
  nodup : (nodes.map Node.id).Nodup
  source : ∀ e ∈ edges, e.source ∈ nodes.map Node.id
  target : ∀ e ∈ edges, e.target ∈ nodes.map Node.id
  label : ∀ e ∈ edges, e.label ≠ some ""

theorem closed_ofLines (hr : rules.Detached) (lines : List String) :
    Closed (ofLines rules lines).nodes (ofLines rules lines).edges := by
  have hedge : ∀ e ∈ (ofLines rules lines).edges, ∃ line ∈ lines,
      e ∈ (Statement.ofLine rules line).edge := by
    intro e he
    rw [edges_ofLines] at he
    exact List.mem_filterMap.mp he
  refine ⟨?_, ?_, ?_, ?_⟩
  · exact nodup_ids_ofLines rules lines
  · intro e he
    obtain ⟨line, hline, hmem⟩ := hedge e he
    exact mem_map_id_ofLines.mpr ⟨line, hline, (Statement.sound_ofLine hr line).source e hmem⟩
  · intro e he
    obtain ⟨line, hline, hmem⟩ := hedge e he
    exact mem_map_id_ofLines.mpr ⟨line, hline, (Statement.sound_ofLine hr line).target e hmem⟩
  · intro e he
    obtain ⟨line, -, hmem⟩ := hedge e he
    exact (Statement.sound_ofLine hr line).label e hmem

theorem isId_of_mem_ofLines (hr : rules.Detached) {id : String}
    (h : id ∈ (ofLines rules lines).nodes.map Node.id) : IsId id.toList := by
  obtain ⟨line, -, hid⟩ := mem_map_id_ofLines.mp h
  exact Statement.isId_of_mem_ids_ofLine hr hid

end Registry

namespace Diagram

theorem exists_ofSource_of_ofText {text : String} {d : Diagram} (h : ofText text = .ok d) :
    ∃ source, Source.ofText text = .ok source ∧ ofSource .standard source = .ok d := by
  unfold ofText ofTextWith at h
  cases hsource : Source.ofText text with
  | error fault => rw [hsource] at h; cases h
  | ok source =>
      rw [hsource] at h
      exact ⟨source, rfl, h⟩

theorem exists_source_of_ofText {text : String} {d : Diagram} (h : ofText text = .ok d) :
    ∃ lines, d.nodes = (Registry.ofLines .standard lines).nodes ∧
      d.edges = (Registry.ofLines .standard lines).edges := by
  obtain ⟨source, -, hsource⟩ := exists_ofSource_of_ofText h
  obtain ⟨-, rfl⟩ := ofSource_eq_ok_iff.mp hsource
  exact ⟨source.lines, rfl, rfl⟩

theorem nodes_ne_nil_of_ofText {text : String} {d : Diagram} (h : ofText text = .ok d) :
    d.nodes ≠ [] := by
  obtain ⟨source, -, hsource⟩ := exists_ofSource_of_ofText h
  obtain ⟨hne, rfl⟩ := ofSource_eq_ok_iff.mp hsource
  exact hne

theorem closed_of_ofText {text : String} {d : Diagram} (h : ofText text = .ok d) :
    Registry.Closed d.nodes d.edges := by
  obtain ⟨lines, hnodes, hedges⟩ := exists_source_of_ofText h
  rw [hnodes, hedges]
  exact Registry.closed_ofLines Rules.detached_standard lines

/-- **The ends of edges are nodes, and nodes have identifiers.**  The rules of the language are
detached, and so are rules for brackets whose opening no identifier runs into.  With detached rules
every diagram that is read has a node for each end of each of its edges; the ids of its nodes are
runs of identifier characters that are not empty. -/
theorem ends_mem_ids_of_ofSource :
    Rules.standard.Detached ∧
    (∀ rule : BracketRule, rule.Detached → (ShapeRule.ofBracket rule).Detached) ∧
    ∀ {rules : Rules}, rules.Detached → ∀ {source : Source} {d : Diagram},
      ofSource rules source = .ok d →
        (∀ e ∈ d.edges, e.source ∈ d.ids ∧ e.target ∈ d.ids) ∧ ∀ id ∈ d.ids, IsId id.toList := by
  refine ⟨Rules.detached_standard, fun _ => BracketRule.Detached.ofBracket, ?_⟩
  intro rules hr source d h
  obtain ⟨-, rfl⟩ := ofSource_eq_ok_iff.mp h
  have hclosed := Registry.closed_ofLines hr source.lines
  refine ⟨?_, ?_⟩
  · intro e he
    exact ⟨hclosed.source e he, hclosed.target e he⟩
  · intro id hid
    exact Registry.isId_of_mem_ofLines hr hid

/-- Rules whose glyph starts with the opening, so that a declaration can cover the target. -/
def tildeRules : Rules :=
  ⟨[.ofBracket ⟨⟨['~'], ['!'], by simp⟩, .rounded⟩], [⟨['~', '>'], .arrow⟩], by simp, by simp⟩

/-- Lines with declarations inside each other, in a label and over the target of an edge. -/
def overlaps : Source where
  kind := .flowchart
  lines := ["A[b\x7bc] --> d\x7d", "A -->|B[x]| d_1(y)", "end --> z", "A~> B!"]
  header := none
  direction := .topBottom

theorem ends_mem_ids_of_ofSource_overlaps :
    (∃ d, ofSource .standard overlaps = .ok d ∧ d.ids = ["A", "d", "d_1"] ∧ d.edges.length = 2 ∧
      (∀ e ∈ d.edges, e.source ∈ d.ids ∧ e.target ∈ d.ids) ∧ ∀ id ∈ d.ids, IsId id.toList) ∧
    tildeRules.Detached ∧
    ∃ d, ofSource tildeRules overlaps = .ok d ∧ d.nodes.map Node.label = ["> B", "B"] ∧
      d.edges.length = 1 ∧
      (∀ e ∈ d.edges, e.source ∈ d.ids ∧ e.target ∈ d.ids) ∧ ∀ id ∈ d.ids, IsId id.toList := by
  have htilde : tildeRules.Detached := by
    refine ⟨?_, ?_, ?_⟩
    · intro rule hrule
      obtain rfl := List.mem_singleton.mp hrule
      exact ends_mem_ids_of_ofSource.2.1 _ ⟨by decide, stops_cons.mpr (by decide)⟩
    · decide
    · intro rule hrule
      obtain rfl := List.mem_singleton.mp hrule
      exact stops_cons.mpr (by decide)
  have hread : ofSource .standard overlaps = .ok ⟨.flowchart, .topBottom,
      [⟨"A", "b\x7bc", .rectangle, true⟩, ⟨"d", "d", .plain, false⟩,
        ⟨"d_1", "y", .rounded, true⟩],
      [⟨"A", "d", none, .arrow⟩, ⟨"A", "d_1", some "B[x]", .arrow⟩]⟩ := by
    decide +kernel
  have hreadTilde : ofSource tildeRules overlaps = .ok ⟨.flowchart, .topBottom,
      [⟨"A", "> B", .rounded, true⟩, ⟨"B", "B", .plain, false⟩],
      [⟨"A", "B", none, .arrow⟩]⟩ := by
    decide +kernel
  refine ⟨⟨_, hread, rfl, rfl, ?_⟩, htilde, _, hreadTilde, rfl, rfl, ?_⟩
  · exact ends_mem_ids_of_ofSource.2.2 ends_mem_ids_of_ofSource.1 hread
  · exact ends_mem_ids_of_ofSource.2.2 htilde hreadTilde

end Diagram

end Flowchart
