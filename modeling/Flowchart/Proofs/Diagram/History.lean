import Flowchart.Diagram.Registry
import Flowchart.Proofs.FirstOccurrence
import Flowchart.Proofs.Grammar.Declaration
import Flowchart.Proofs.Grammar.Unambiguous

/-! # The first write wins

The nodes of a registry are settled by the history of all mentions (`Registry.history`): there is a
node for every id that is mentioned, in the order of the first mentions, and it holds what the first
declaration of its id says, or nothing but the id (`Node.ofHistory`).  Taking up one more mention
keeps this (`Registry.register_nodesOf`), so it holds of every run (`Registry.nodes_ofLines`).

The mentions of a line stand in the order of their columns, those at one column as they were found
(`Statement.lists_ofContent`).  The result for a source, with rules of any kind, is
`Diagram.tells_of_ofSource`. -/

namespace Flowchart

open Grammar

/-! ### Histories of mentions -/

/-- What the first declaration of an id says. -/
def firstDeclaration? (past : List Mention) (id : String) : Option (String × Shape) :=
  past.findSome? fun m => if m.id = id then m.declared else none

/-- The node of an id after a history of mentions. -/
def Node.ofHistory (past : List Mention) (id : String) : Node :=
  match firstDeclaration? past id with
  | some (label, shape) => .ofDeclaration id label shape
  | none => .implicit id

/-- The nodes after a history of mentions, in the order of the first mentions. -/
def Registry.nodesOf (past : List Mention) : List Node :=
  (past.map Mention.id).eraseDups.map (Node.ofHistory past)

section
variable {past : List Mention} {m : Mention} {id : String}

@[simp] theorem Node.id_ofHistory (past : List Mention) (id : String) :
    (Node.ofHistory past id).id = id := by
  unfold ofHistory
  split <;> rfl

theorem Node.declared_ofHistory (past : List Mention) (id : String) :
    (Node.ofHistory past id).declared = (firstDeclaration? past id).isSome := by
  unfold ofHistory
  split <;> simp [*, ofDeclaration, implicit]

theorem firstDeclaration?_append_singleton (past : List Mention) (m : Mention) (id : String) :
    firstDeclaration? (past ++ [m]) id =
      (firstDeclaration? past id).or (if m.id = id then m.declared else none) := by
  rw [firstDeclaration?, List.findSome?_append, List.findSome?_singleton]
  rfl

theorem firstDeclaration?_eq_none (h : id ∉ past.map Mention.id) :
    firstDeclaration? past id = none := by
  rw [firstDeclaration?, List.findSome?_eq_none_iff]
  intro m hm
  rw [if_neg]
  rintro rfl
  exact h (List.mem_map_of_mem hm)

/-- A mention of another id, or one that declares nothing, does not change a node. -/
theorem Node.ofHistory_append_of_ne (h : m.id ≠ id ∨ m.declared = none) :
    Node.ofHistory (past ++ [m]) id = Node.ofHistory past id := by
  have hnone : (if m.id = id then m.declared else none) = none := by
    rcases h with h | h
    · rw [if_neg h]
    · rw [h, ite_self]
  unfold ofHistory
  rw [firstDeclaration?_append_singleton, hnone, Option.or_none]

/-- A declaration settles a node that is not declared yet. -/
theorem Node.ofHistory_append_self {label : String} {shape : Shape}
    (hm : m.declared = some (label, shape)) :
    Node.ofHistory (past ++ [m]) m.id =
      if (Node.ofHistory past m.id).declared then Node.ofHistory past m.id
      else .ofDeclaration m.id label shape := by
  rw [declared_ofHistory]
  unfold ofHistory
  rw [firstDeclaration?_append_singleton, if_pos rfl, hm]
  cases firstDeclaration? past m.id <;> rfl

/-- The first mention of an id makes its node. -/
theorem Node.ofHistory_append_new (h : m.id ∉ past.map Mention.id) :
    Node.ofHistory (past ++ [m]) m.id =
      m.declared.elim (.implicit m.id) fun declared =>
        .ofDeclaration m.id declared.1 declared.2 := by
  unfold ofHistory
  rw [firstDeclaration?_append_singleton, firstDeclaration?_eq_none h, if_pos rfl, Option.none_or]
  cases m.declared <;> rfl

end

namespace Registry

variable {past : List Mention}

theorem map_id_nodesOf (past : List Mention) :
    (nodesOf past).map Node.id = (past.map Mention.id).eraseDups := by
  simp [nodesOf, Function.comp_def]

theorem register_nodesOf (past : List Mention) (m : Mention) :
    register (nodesOf past) m = nodesOf (past ++ [m]) := by
  have hknown : ((nodesOf past).any fun n => n.id == m.id) = true ↔
      m.id ∈ past.map Mention.id := by
    rw [← List.mem_eraseDups, ← map_id_nodesOf]
    simp
  have hids : ((past ++ [m]).map Mention.id).eraseDups =
      if m.id ∈ past.map Mention.id then (past.map Mention.id).eraseDups
      else (past.map Mention.id).eraseDups ++ [m.id] := by
    rw [List.map_append, List.map_singleton, eraseDups_append_singleton]
  unfold register
  by_cases h : m.id ∈ past.map Mention.id
  · rw [hknown.mpr h, nodesOf, nodesOf, hids, if_pos h]
    cases hm : m.declared with
    | none => exact List.map_congr_left fun id _ => (Node.ofHistory_append_of_ne (.inr hm)).symm
    | some declared =>
        obtain ⟨label, shape⟩ := declared
        simp only [if_true, declare, List.map_map]
        refine List.map_congr_left fun id _ => ?_
        by_cases hid : m.id = id
        · subst hid
          rw [Node.ofHistory_append_self hm]
          cases hd : (Node.ofHistory past m.id).declared <;>
            simp [hd, Node.ofDeclaration]
        · rw [Node.ofHistory_append_of_ne (.inl hid)]
          simp [Node.ofDeclaration, Ne.symm hid]
  · have hrest : ∀ id ∈ (past.map Mention.id).eraseDups,
        Node.ofHistory (past ++ [m]) id = Node.ofHistory past id := by
      intro id hid
      refine Node.ofHistory_append_of_ne (.inl ?_)
      rintro rfl
      exact h (List.mem_eraseDups.mp hid)
    rw [Bool.eq_false_iff.mpr (mt hknown.mp h), nodesOf, nodesOf, hids, if_neg h, List.map_append,
      List.map_congr_left hrest, List.map_singleton, Node.ofHistory_append_new h]
    cases m.declared <;> rfl

/-- The nodes after a run of mentions are those of its history. -/
theorem foldl_register_nodesOf (past mentions : List Mention) :
    mentions.foldl register (nodesOf past) = nodesOf (past ++ mentions) := by
  induction mentions generalizing past with
  | nil => rw [List.foldl_nil, List.append_nil]
  | cons m mentions ih =>
      rw [List.foldl_cons, register_nodesOf, ih, List.append_assoc, List.singleton_append]

/-- The mentions of some lines, in the order in which they stand. -/
def history (rules : Rules) (lines : List String) : List Mention :=
  lines.flatMap fun line => (Statement.ofLine rules line).mentions

theorem nodes_foldl_add (registry : Registry) (statements : List Statement) :
    (statements.foldl add registry).nodes =
      (statements.flatMap Statement.mentions).foldl register registry.nodes := by
  induction statements generalizing registry with
  | nil => rfl
  | cons s statements ih =>
      rw [List.foldl_cons, ih, List.flatMap_cons, List.foldl_append]
      rfl

theorem edges_foldl_add (registry : Registry) (statements : List Statement) :
    (statements.foldl add registry).edges =
      registry.edges ++ statements.filterMap Statement.edge := by
  induction statements generalizing registry with
  | nil => exact (List.append_nil _).symm
  | cons s statements ih =>
      rw [List.foldl_cons, ih, add, List.append_assoc, List.filterMap_cons]
      cases s.edge <;> rfl

/-- The nodes of some lines are settled by the mentions on them. -/
theorem nodes_ofLines (rules : Rules) (lines : List String) :
    (ofLines rules lines).nodes = nodesOf (history rules lines) := by
  rw [ofLines, nodes_foldl_add, List.flatMap_map]
  exact foldl_register_nodesOf [] _

/-- No id is entered twice. -/
theorem nodup_ids_ofLines (rules : Rules) (lines : List String) :
    ((ofLines rules lines).nodes.map Node.id).Nodup := by
  rw [nodes_ofLines, map_id_nodesOf]
  exact nodup_eraseDups _

/-- The edges of some lines are the edges of the lines. -/
theorem edges_ofLines (rules : Rules) (lines : List String) :
    (ofLines rules lines).edges =
      lines.filterMap fun line => (Statement.ofLine rules line).edge := by
  rw [ofLines, edges_foldl_add, List.filterMap_map]
  rfl

end Registry

/-! ### The mentions of a line -/

namespace Grammar.Statement

variable {rules : Rules} {content : List Char}

/-- The columns of the label of the edge, where nothing is declared. -/
def labelSpan (rules : Rules) (content : List Char) : Option Span :=
  (readEdge? rules.connectors content).bind EdgeReading.labelSpan

/-- The declarations that are kept on a line. -/
def declared (rules : Rules) (content : List Char) : List Declaration :=
  declarations rules.shapes (labelSpan rules content) content

/-- The ends of the edge, unless something is declared at their column. -/
def undeclaredEnds (rules : Rules) (content : List Char) : List Mention :=
  (((readEdge? rules.connectors content).map endpoints).getD []).filter fun m =>
    (declared rules content).all fun d => d.column != m.column

/-- The mentions of a line.  What is declared on it was found by a rule outside of the label of its
edge and stands apart, and all else that was found there starts inside of what is declared.
Mentioned are what is declared and the ends of the edge that are not, in the order of their columns,
and those at one column as they were found; brackets hold no two at one column. -/
structure Lists (rules : Rules) (content : List Char) (mentions : List Mention) : Prop where
  found : ∀ d ∈ declared rules content, ∃ rule ∈ rules.shapes, ∃ f ∈ rule.find content,
    f.declaration rule.shape = d ∧ covers (labelSpan rules content) d.column = false
  apart : (declared rules content).Pairwise fun d e => d.stop ≤ e.column
  maximal : ∀ rule ∈ rules.shapes, ∀ f ∈ rule.find content,
    covers (labelSpan rules content) f.column = false →
      f.declaration rule.shape ∈ declared rules content ∨
        ∃ d ∈ declared rules content, d.column ≤ f.column ∧ f.column < d.stop
  sorted : mentions.Pairwise fun m n => m.column ≤ n.column
  at_column : ∀ column, mentions.filter (fun m => m.column = column) =
    ((declared rules content).map Declaration.mention ++ undeclaredEnds rules content).filter
      fun m => m.column = column
  mem_iff : ∀ m, m ∈ mentions ↔ m ∈ (declared rules content).map Declaration.mention ∨
    ∃ r, readEdge? rules.connectors content = some r ∧ m ∈ endpoints r ∧
      ∀ d ∈ declared rules content, d.column ≠ m.column
  brackets : ∀ brackets : List BracketRule, rules.shapes = brackets.map ShapeRule.ofBracket →
    (∀ d ∈ declared rules content, ∃ rule ∈ brackets, rule.Declares content d) ∧
      mentions.Pairwise fun m n => m.column < n.column

theorem mentions_ofContent (rules : Rules) (content : List Char) :
    (ofContent rules content).mentions = sortBy (fun m n => m.column ≤ n.column)
      ((declared rules content).map Declaration.mention ++ undeclaredEnds rules content) := rfl

theorem mem_mentions_ofContent (m : Mention) : m ∈ (ofContent rules content).mentions ↔
    m ∈ (declared rules content).map Declaration.mention ∨
      ∃ r, readEdge? rules.connectors content = some r ∧ m ∈ endpoints r ∧
        ∀ d ∈ declared rules content, d.column ≠ m.column := by
  rw [mentions_ofContent, (sortBy_perm _ _).mem_iff, List.mem_append, undeclaredEnds,
    List.mem_filter]
  cases h : readEdge? rules.connectors content <;> simp

theorem exists_find_of_mem_declared {d : Declaration} (h : d ∈ declared rules content) :
    ∃ rule ∈ rules.shapes, ∃ f ∈ rule.find content, f.declaration rule.shape = d :=
  let ⟨rule, hrule, f, hf, hd, _⟩ := exists_find_of_mem_declarations h
  ⟨rule, hrule, f, hf, hd⟩

theorem targetColumn_pos {connectors : List ConnectorRule} {r : EdgeReading}
    (h : r.Fits connectors) : 0 < r.targetColumn := by
  have := List.length_pos_iff.mpr h.source.1
  simp only [EdgeReading.targetColumn, EdgeReading.lead, List.length_append]
  omega

/-- The mentions stand in the order of their columns. -/
theorem pairwise_mentions_ofContent (rules : Rules) (content : List Char) :
    (ofContent rules content).mentions.Pairwise fun m n => m.column ≤ n.column :=
  pairwise_sortBy_key Mention.column _

/-- With rules for brackets no two mentions stand at one column. -/
theorem pairwise_column_ofContent {brackets : List BracketRule}
    (hs : rules.shapes = brackets.map ShapeRule.ofBracket) (content : List Char) :
    (ofContent rules content).mentions.Pairwise fun m n => m.column < n.column := by
  -- The columns are distinct before they are sorted.
  have hdeclared : ((declared rules content).map Declaration.mention).Pairwise
      fun m n => m.column ≠ n.column := by
    rw [declared, hs]
    exact List.pairwise_map.mpr ((pairwise_column_declarations _ _ _).imp Nat.ne_of_lt)
  have hends : (((readEdge? rules.connectors content).map endpoints).getD []).Pairwise
      fun m n => m.column ≠ n.column := by
    cases h : readEdge? rules.connectors content with
    | none => exact .nil
    | some r =>
        have := targetColumn_pos (exists_of_readEdge? h).1
        simp [endpoints]
        omega
  have hdistinct : (ofContent rules content).mentions.Pairwise
      fun m n => m.column ≠ n.column := by
    refine (sortBy_perm _ _).symm.pairwise (List.pairwise_append.mpr
      ⟨hdeclared, hends.filter _, ?_⟩) fun h => h.symm
    intro m hm n hn
    obtain ⟨d, hd, rfl⟩ := List.mem_map.mp hm
    have := (List.all_eq_true.mp (List.mem_filter.mp hn).2) d hd
    simpa [Declaration.mention] using this
  exact ((pairwise_mentions_ofContent rules content).and hdistinct).imp
    fun h => Nat.lt_of_le_of_ne h.1 h.2

theorem lists_ofContent (rules : Rules) (content : List Char) :
    Lists rules content (ofContent rules content).mentions where
  found _ hd := exists_find_of_mem_declarations hd
  apart := pairwise_declarations _ _ _
  maximal rule hrule f hf hcovers :=
    mem_declarations_or_exists (d := f.declaration rule.shape)
      (mem_candidates.mpr ⟨⟨rule, hrule, List.mem_map_of_mem hf⟩, hcovers⟩)
  sorted := pairwise_mentions_ofContent rules content
  at_column column := by
    rw [mentions_ofContent, filter_sortBy]
    intro m n hm hn
    exact decide_eq_true ((of_decide_eq_true hm).trans (of_decide_eq_true hn).symm).le
  mem_iff := mem_mentions_ofContent
  brackets _ hs := by
    refine ⟨fun d hd => ?_, pairwise_column_ofContent hs content⟩
    rw [declared, hs] at hd
    obtain ⟨rule, hrule, hdeclares, -⟩ := exists_of_mem_declarations hd
    exact ⟨rule, hrule, hdeclares⟩

end Grammar.Statement

/-! ### First writes -/

section
variable {past more : List Mention} {id : String}

theorem firstDeclaration?_isSome_iff (past : List Mention) (id : String) :
    (firstDeclaration? past id).isSome ↔ ∃ m ∈ past, m.id = id ∧ m.declared ≠ none := by
  rw [firstDeclaration?, List.findSome?_isSome_iff]
  refine exists_congr fun m => and_congr_right fun _ => ?_
  by_cases h : m.id = id <;> simp [h, Option.isSome_iff_ne_none]

/-- The first declaration is the one that no other stands before. -/
theorem firstDeclaration?_eq_some {before after : List Mention} {m : Mention}
    {declared : String × Shape} (hbefore : ∀ m' ∈ before, m'.id = id → m'.declared = none)
    (hid : m.id = id) (hm : m.declared = some declared) :
    firstDeclaration? (before ++ m :: after) id = some declared := by
  have hnone : before.findSome? (fun m => if m.id = id then m.declared else none) = none := by
    rw [List.findSome?_eq_none_iff]
    intro m' hm'
    split
    · next h => exact hbefore m' hm' h
    · rfl
  rw [firstDeclaration?, List.findSome?_append, hnone, Option.none_or, List.findSome?_cons,
    if_pos hid, hm]

/-- Later mentions do not change a node that is declared. -/
theorem Node.ofHistory_append_of_declared (h : (Node.ofHistory past id).declared = true) :
    Node.ofHistory (past ++ more) id = Node.ofHistory past id := by
  rw [declared_ofHistory] at h
  obtain ⟨declared, hdeclared⟩ := Option.isSome_iff_exists.mp h
  have happend : firstDeclaration? (past ++ more) id = some declared := by
    rw [firstDeclaration?, List.findSome?_append]
    exact Option.or_of_isSome h ▸ hdeclared
  unfold ofHistory
  rw [happend, hdeclared]

end

/-- A node is declared if a mention of its id declares it, and the first such mention counts; its
label is the id if that mention has none.  A node that is not declared is plain. -/
structure Node.FirstWrite (past : List Mention) (n : Node) : Prop where
  declared_iff : n.declared = true ↔ ∃ m ∈ past, m.id = n.id ∧ m.declared ≠ none
  first : ∀ before m after label shape, past = before ++ m :: after →
    (∀ m' ∈ before, m'.id = n.id → m'.declared = none) → m.id = n.id →
    m.declared = some (label, shape) →
    n.shape = shape ∧ n.label = if label = "" then n.id else label
  implicit : n.declared = false → n.shape = .plain ∧ n.label = n.id

theorem Node.firstWrite_ofHistory (past : List Mention) (id : String) :
    (Node.ofHistory past id).FirstWrite past where
  declared_iff := by rw [declared_ofHistory, id_ofHistory, firstDeclaration?_isSome_iff]
  first := by
    rintro before m after label shape rfl hbefore hid hm
    rw [id_ofHistory] at hbefore hid ⊢
    unfold ofHistory
    rw [firstDeclaration?_eq_some hbefore hid hm]
    exact ⟨rfl, rfl⟩
  implicit := by
    rw [declared_ofHistory, id_ofHistory]
    unfold ofHistory
    cases firstDeclaration? past id with
    | none => exact fun _ => ⟨rfl, rfl⟩
    | some declared => exact fun h => nomatch h

/-! ### Diagrams of lines -/

namespace Diagram

variable {rules : Rules} {source : Source} {d : Diagram}

/-- What lines tell of a diagram: the ids in the order of their first mentions, the first writes,
and the edges line by line. -/
structure Tells (rules : Rules) (lines : List String) (d : Diagram) : Prop where
  ids : d.ids = ((Registry.history rules lines).map Mention.id).eraseDups
  node : ∀ n ∈ d.nodes, n.FirstWrite (Registry.history rules lines)
  edges : d.edges = lines.filterMap fun line => (Statement.ofLine rules line).edge

/-- A later diagram keeps the ids and the edges in their order, and the declared nodes as they
are. -/
structure Extends (d later : Diagram) : Prop where
  ids : d.ids <+: later.ids
  edges : d.edges <+: later.edges
  declared : ∀ (i : Nat) (n : Node), d.nodes[i]? = some n → n.declared = true →
    later.nodes[i]? = some n

theorem ofSource_eq_ok_iff : ofSource rules source = .ok d ↔
    (Registry.ofLines rules source.lines).nodes ≠ [] ∧
      d = ⟨source.kind, source.direction, (Registry.ofLines rules source.lines).nodes,
        (Registry.ofLines rules source.lines).edges⟩ := by
  simp only [ofSource]
  split
  · next h => simp [List.isEmpty_iff.mp h]
  · next h =>
      rw [List.isEmpty_iff] at h
      exact ⟨fun hd => ⟨h, (Except.ok.inj hd).symm⟩, fun hd => hd.2 ▸ rfl⟩

theorem tells_ofLines (rules : Rules) (lines : List String) (kind : DiagramKind)
    (direction : Direction) :
    Tells rules lines ⟨kind, direction, (Registry.ofLines rules lines).nodes,
      (Registry.ofLines rules lines).edges⟩ where
  ids := by rw [Diagram.ids, Registry.nodes_ofLines, Registry.map_id_nodesOf]
  node n hn := by
    rw [Registry.nodes_ofLines] at hn
    obtain ⟨id, -, rfl⟩ := List.mem_map.mp hn
    exact Node.firstWrite_ofHistory _ id
  edges := Registry.edges_ofLines rules lines

theorem extends_ofLines (rules : Rules) (lines more : List String) (kind : DiagramKind)
    (direction : Direction) :
    Extends ⟨kind, direction, (Registry.ofLines rules lines).nodes,
      (Registry.ofLines rules lines).edges⟩
      ⟨kind, direction, (Registry.ofLines rules (lines ++ more)).nodes,
        (Registry.ofLines rules (lines ++ more)).edges⟩ := by
  have hhistory : Registry.history rules (lines ++ more) =
      Registry.history rules lines ++ Registry.history rules more := List.flatMap_append
  have hids : ((Registry.history rules lines).map Mention.id).eraseDups <+:
      ((Registry.history rules (lines ++ more)).map Mention.id).eraseDups := by
    rw [hhistory, List.map_append, List.eraseDups_append]
    exact List.prefix_append _ _
  refine ⟨?_, ?_, ?_⟩
  · rw [(tells_ofLines rules lines kind direction).ids,
      (tells_ofLines rules (lines ++ more) kind direction).ids]
    exact hids
  · rw [(tells_ofLines rules lines kind direction).edges,
      (tells_ofLines rules (lines ++ more) kind direction).edges, List.filterMap_append]
    exact List.prefix_append _ _
  · intro i n hn hdeclared
    simp only [Registry.nodes_ofLines, Registry.nodesOf, List.getElem?_map,
      Option.map_eq_some_iff] at hn ⊢
    obtain ⟨id, hid, rfl⟩ := hn
    obtain ⟨hlt, -⟩ := List.getElem?_eq_some_iff.mp hid
    obtain ⟨rest, hrest⟩ := hids
    refine ⟨id, ?_, ?_⟩
    · rw [← hrest, List.getElem?_append_left hlt, hid]
    · rw [hhistory, Node.ofHistory_append_of_declared hdeclared]

/-- **The first write wins.**  The nodes of a source are the ids that its lines mention, line by
line and by column, in the order of their first mentions; the first declaration of an id settles its
node, and nothing else changes it.  Directives mention nothing.  More lines at the end only extend
the diagram. -/
theorem tells_of_ofSource (h : ofSource rules source = .ok d) :
    d.Tells rules source.lines ∧
    (∀ line ∈ source.lines, isDirective (lineContent line) = true →
      Statement.ofLine rules line = ⟨[], none⟩) ∧
    (∀ line ∈ source.lines, isDirective (lineContent line) = false →
      Statement.Lists rules (lineContent line) (Statement.ofLine rules line).mentions ∧
      (Statement.ofLine rules line).edge =
        (readEdge? rules.connectors (lineContent line)).map (EdgeReading.edge rules.connectors)) ∧
    ∀ more, ∃ later, ofSource rules { source with lines := source.lines ++ more } = .ok later ∧
      d.Extends later := by
  obtain ⟨hne, rfl⟩ := ofSource_eq_ok_iff.mp h
  refine ⟨tells_ofLines rules source.lines _ _, ?_, ?_, ?_⟩
  · intro line _ hline
    rw [Statement.ofLine, if_pos hline]
  · intro line _ hline
    refine ⟨?_, Statement.edge_ofLine hline⟩
    rw [Statement.ofLine, if_neg (by simp [hline])]
    exact Statement.lists_ofContent rules _
  · intro more
    have hextends := extends_ofLines rules source.lines more source.kind source.direction
    refine ⟨_, ofSource_eq_ok_iff.mpr ⟨?_, rfl⟩, hextends⟩
    intro hnil
    have hids := hextends.ids
    rw [Diagram.ids, Diagram.ids, hnil] at hids
    exact hne (List.map_eq_nil_iff.mp (List.prefix_nil.mp hids))

/-- Double brackets at the start of a line, with a label up to the first two closing ones. -/
def doubled : ShapeRule where
  find line :=
    let id := line.takeWhile isIdChar
    let inner := line.drop (id.length + 2)
    let ends := (List.range inner.length).filter fun n => [']', ']'].isPrefixOf (inner.drop n)
    match id.isEmpty, ['[', '['].isPrefixOf (line.drop id.length), ends.head? with
    | false, true, some n =>
      [⟨0, id.length + 2 + n + 2, String.ofList id, inner.take n, Nat.zero_le _⟩]
    | _, _, _ => []
  shape := .ellipse

/-- The rules of the language behind one of another kind. -/
def doubledRules : Rules :=
  ⟨doubled :: ShapeRule.standard, ConnectorRule.standard, List.cons_ne_nil _ _,
    Rules.standard.connectors_ne_nil⟩

/-- Nodes that are first met as ends of edges, an empty label, a directive, a declaration that comes
too late and a label that no bracket rule reads. -/
def upgrades : Source where
  kind := .flowchart
  lines := ["X --> Y[]", "Y[Late]", "end Z[z]", "X\x7bOne\x7d ---|Y| W(' q ');", "X[Two]",
    "V[[x]y]]"]
  header := none
  direction := .topBottom

theorem tells_of_ofSource_upgrades :
    let d : Diagram := ⟨.flowchart, .topBottom, [⟨"X", "One", .diamond, true⟩,
      ⟨"Y", "Y", .rectangle, true⟩, ⟨"W", "q", .rounded, true⟩, ⟨"V", "x]y", .ellipse, true⟩],
      [⟨"X", "Y", none, .arrow⟩, ⟨"X", "W", some "Y", .plain⟩]⟩
    ofSource doubledRules upgrades = .ok d ∧
    d.Tells doubledRules upgrades.lines ∧
    (∀ line ∈ upgrades.lines, isDirective (lineContent line) = true →
      Statement.ofLine doubledRules line = ⟨[], none⟩) ∧
    (∀ line ∈ upgrades.lines, isDirective (lineContent line) = false →
      Statement.Lists doubledRules (lineContent line)
        (Statement.ofLine doubledRules line).mentions ∧
      (Statement.ofLine doubledRules line).edge = (readEdge? doubledRules.connectors
        (lineContent line)).map (EdgeReading.edge doubledRules.connectors)) ∧
    ∀ more, ∃ later, ofSource doubledRules { upgrades with lines := upgrades.lines ++ more } =
      .ok later ∧ d.Extends later := by
  have h : ofSource doubledRules upgrades = .ok ⟨.flowchart, .topBottom,
      [⟨"X", "One", .diamond, true⟩, ⟨"Y", "Y", .rectangle, true⟩, ⟨"W", "q", .rounded, true⟩,
        ⟨"V", "x]y", .ellipse, true⟩],
      [⟨"X", "Y", none, .arrow⟩, ⟨"X", "W", some "Y", .plain⟩]⟩ := by
    decide +kernel
  exact ⟨h, tells_of_ofSource h⟩

end Diagram

end Flowchart
