import Mathlib.Tactic.MkIffOfInductiveProp
import Flowchart.Diagram.Registry
import Flowchart.Proofs.Grammar.Compact
import Flowchart.Proofs.Text.Lines

/-! # Reading what was printed

`Diagram.print` writes a flowchart in one canonical way: a header, a line for each node and a line
for each edge.  Reading gives the diagram back (`Diagram.ofText_print`) if it is printable, that is,
if ids are identifiers, labels are free of what would end them, and labels are clean already.
Nothing else is asked for: an id may be the word of a directive, and a label may look like a shape,
an edge or a comment.

Every printed line is kept by the splitting of the text (`Diagram.Printable.kept_of_mem_lines`) and
enters exactly its own node or edge (`Registry.add_node_line`, `Registry.add_edge_line`). -/

namespace Flowchart

open Grammar

/-! ### Printing -/

def Node.line (n : Node) : String :=
  match n.shape with
  | .rectangle => n.id ++ "[" ++ n.label ++ "]"
  | .diamond => n.id ++ "\x7b" ++ n.label ++ "\x7d"
  | .ellipse => n.id ++ "((" ++ n.label ++ "))"
  | .rounded => n.id ++ "(" ++ n.label ++ ")"
  | .plain => n.id

def Connector.glyph : Connector → String
  | .arrow => "-->"
  | .thickArrow => "==>"
  | .thick => "==="
  | .dotted => "-.->"
  | .plain => "---"

def Edge.line (e : Edge) : String :=
  match e.label with
  | none => e.source ++ e.connector.glyph ++ e.target
  | some label => e.source ++ e.connector.glyph ++ "|" ++ label ++ "|" ++ e.target

def Direction.header (d : Direction) : String := "graph " ++ d.name

def Diagram.lines (d : Diagram) : List String :=
  d.direction.header :: (d.nodes.map Node.line ++ d.edges.map Edge.line)

/-- The text of a flowchart. -/
def Diagram.print (d : Diagram) : String := "\n".intercalate d.lines

/-! ### What can be printed -/

/-- A label that is not empty, holds no line break and is clean already. -/
@[mk_iff]
structure IsLabel (label : String) : Prop where
  ne_empty : label ≠ ""
  unbroken : Text.Unbroken label.toList
  clean : cleanLabel label.toList = label

instance (label : String) : Decidable (IsLabel label) := decidable_of_iff' _ (isLabel_iff label)

/-- The character that ends the label of a shape. -/
def Shape.closer : Shape → Char
  | .rectangle => ']'
  | .diamond => '\x7d'
  | _ => ')'

/-- A declared node with a shape, whose label does not hold what ends it. -/
@[mk_iff]
structure Node.Printable (n : Node) : Prop where
  id : IsId n.id.toList
  label : IsLabel n.label
  closer : n.shape.closer ∉ n.label.toList
  shape : n.shape ≠ .plain
  declared : n.declared = true

instance (n : Node) : Decidable n.Printable := decidable_of_iff' _ (Node.printable_iff n)

/-- A flowchart whose nodes can be printed and whose edges, with labels free of bars, run between
them. -/
@[mk_iff]
structure Diagram.Printable (d : Diagram) : Prop where
  kind : d.kind = .flowchart
  nonempty : d.nodes ≠ []
  nodup : d.ids.Nodup
  node : ∀ n ∈ d.nodes, n.Printable
  source : ∀ e ∈ d.edges, e.source ∈ d.ids
  target : ∀ e ∈ d.edges, e.target ∈ d.ids
  label : ∀ e ∈ d.edges, ∀ label ∈ e.label, IsLabel label ∧ '|' ∉ label.toList

instance (d : Diagram) : Decidable d.Printable := decidable_of_iff' _ (Diagram.printable_iff d)

/-! ### Printed lines in the grammar -/

/-- The rule that reads the declaration of a shape. -/
def Shape.rule : Shape → BracketRule
  | .rectangle => .rectangle
  | .diamond => .diamond
  | .ellipse => .ellipse
  | _ => .rounded

theorem Shape.rule_mem_standard (shape : Shape) : shape.rule ∈ BracketRule.standard := by
  cases shape <;> simp [rule, BracketRule.standard]

theorem Shape.stop_rule (shape : Shape) : shape.rule.enclosure.stop = shape.closer := by
  cases shape <;> rfl

theorem Shape.shape_rule {shape : Shape} (h : shape ≠ .plain) : shape.rule.shape = shape := by
  cases shape with
  | plain => exact absurd rfl h
  | _ => rfl

theorem Node.toList_line {n : Node} (h : n.shape ≠ .plain) :
    n.line.toList = n.id.toList ++ n.shape.rule.enclosure.wrap n.label.toList := by
  unfold line
  cases hshape : n.shape with
  | plain => exact absurd hshape h
  | _ => simp [Shape.rule, BracketRule.rectangle, BracketRule.diamond, BracketRule.ellipse,
      BracketRule.rounded, Enclosure.wrap]

abbrev Edge.reading (e : Edge) : EdgeReading :=
  .compact e.source.toList e.connector.glyph.toList (e.label.map String.toList) e.target.toList

theorem Edge.toList_line (e : Edge) : e.line.toList = e.reading.text := by
  unfold line reading
  rw [EdgeReading.text_compact]
  cases e.label with
  | none => simp [labelText]
  | some label => simp [labelText, bars, Enclosure.wrap]

theorem Connector.rule_mem_standard (c : Connector) :
    ⟨c.glyph.toList, c⟩ ∈ ConnectorRule.standard := by
  cases c <;> simp [glyph, ConnectorRule.standard]

namespace Diagram.Printable

variable {d : Diagram} {e : Edge}

theorem isId (h : d.Printable) {id : String} (hid : id ∈ d.ids) : IsId id.toList := by
  obtain ⟨n, hn, rfl⟩ := List.mem_map.mp hid
  exact (h.node n hn).id

theorem fits_reading (h : d.Printable) (he : e ∈ d.edges) :
    e.reading.Fits ConnectorRule.standard := by
  refine EdgeReading.fits_compact (h.isId (h.source e he)) ?_ ?_ (h.isId (h.target e he))
  · exact List.mem_map_of_mem e.connector.rule_mem_standard
  · intro body hbody
    obtain ⟨label, hlabel, rfl⟩ := Option.map_eq_some_iff.mp hbody
    exact (h.label e he label hlabel).2

theorem edge_reading (h : d.Printable) (he : e ∈ d.edges) :
    e.reading.edge ConnectorRule.standard = e := by
  have hconnector :
      ConnectorRule.connectorOf ConnectorRule.standard e.connector.glyph.toList = e.connector :=
    connectorOf_glyph clear_standard.nodup e.connector.rule_mem_standard
  have hlabel : ((e.label.map String.toList).map cleanLabel).filter (· != "") = e.label := by
    cases hl : e.label with
    | none => rfl
    | some label =>
        have hclean := (h.label e he label hl).1
        simp [hclean.clean, hclean.ne_empty]
  unfold EdgeReading.edge Edge.reading EdgeReading.compact
  rw [hconnector, hlabel, String.ofList_toList, String.ofList_toList]

end Diagram.Printable

/-! ### Printed lines are kept -/

theorem Grammar.IsId.unbroken {id : List Char} (h : IsId id) : Text.Unbroken id :=
  Text.unbroken_of_isBlank fun c hc => isBlank_of_isIdChar (h.2 c hc)

theorem unbroken_wrap {e : Enclosure} {body : List Char}
    (hopening : Text.Unbroken e.opening) (hclosing : Text.Unbroken e.closing)
    (hbody : Text.Unbroken body) : Text.Unbroken (e.wrap body) :=
  (hopening.append hbody).append hclosing

/-- Directive words are identifiers, so a first word that goes on behind one is no directive. -/
theorem isDirective_eq_false {id rest : List Char} {c : Char} (hid : IsId id)
    (hc : isIdChar c = false) (hb : Text.isBlank c = false) :
    isDirective (id ++ c :: rest) = false := by
  have hword : Text.firstWord (id ++ c :: rest) = id ++ Text.firstWord (c :: rest) := by
    unfold Text.firstWord
    exact List.takeWhile_append_of_pos fun d hd => by simp [isBlank_of_isIdChar (hid.2 d hd)]
  have hmem : c ∈ Text.firstWord (id ++ c :: rest) := by
    rw [hword]
    simp [Text.firstWord, hb]
  have hwords : (directives.all fun word => word.toList.all isIdChar) = true := by decide
  simp only [List.all_eq_true] at hwords
  by_contra hdirective
  have := hwords _ (by simpa [isDirective] using hdirective) c (by simpa using hmem)
  rw [hc] at this
  cases this

/-- An unbroken line in which an identifier runs into something else than a blank, and which ends
with an identifier or a closer. -/
structure IsPrinted (line : List Char) : Prop where
  unbroken : Text.Unbroken line
  first : ∃ id c rest, line = id ++ c :: rest ∧ IsId id ∧ isIdChar c = false ∧
    Text.isBlank c = false
  last : ∀ c ∈ line.getLast?, isIdChar c = true ∨ isCloser c = true

namespace IsPrinted

variable {line : List Char}

theorem isBlank_of_last {c : Char} (h : isIdChar c = true ∨ isCloser c = true) :
    Text.isBlank c = false ∧ c ≠ ';' := by
  rcases h with h | h
  · refine ⟨isBlank_of_isIdChar h, ?_⟩
    rintro rfl
    revert h
    decide
  · rcases cases_of_isCloser h with rfl | rfl | rfl <;> decide

theorem kept (h : IsPrinted line) : Kept line := by
  obtain ⟨id, c, rest, hline, hid, -, -⟩ := h.first
  obtain ⟨d, t, hcons, hd⟩ := hid.starts.append (c :: rest)
  rw [← hline] at hcons
  refine ⟨?_, h.unbroken, ?_, fun c hc => (isBlank_of_last (h.last c hc)).1⟩
  · have hmark : d ≠ '%' := by
      rintro rfl
      revert hd
      decide
    simp [hcons, isContent, commentMark, List.isPrefixOf, Ne.symm hmark]
  · intro c hc
    rw [hcons] at hc
    obtain rfl := Option.some.inj hc
    exact isBlank_of_isIdChar hd

theorem ofLine_eq {line : String} (h : IsPrinted line.toList) (rules : Rules) :
    Statement.ofLine rules line = .ofContent rules line.toList := by
  have hcontent : lineContent line = line.toList := by
    unfold lineContent
    rw [Text.dropEndWhile_eq_self, Text.trim_eq_self h.kept.head h.kept.last]
    intro c hc
    simpa using (isBlank_of_last (h.last c hc)).2
  have hdirective : isDirective line.toList = false := by
    obtain ⟨id, c, rest, hline, hid, hc, hb⟩ := h.first
    rw [hline]
    exact isDirective_eq_false hid hc hb
  unfold Statement.ofLine
  rw [hcontent, if_neg (by simp [hdirective])]

end IsPrinted

theorem Node.Printable.isPrinted_line {n : Node} (h : n.Printable) : IsPrinted n.line.toList := by
  obtain ⟨c, rest, hwrap, hc⟩ := starts_suffixText
    (isSuffix_of_mem_standard n.shape.rule_mem_standard (n.shape.stop_rule ▸ h.closer))
  rw [suffixText] at hwrap
  refine ⟨?_, ?_, ?_⟩
  · rw [toList_line h.shape]
    refine h.id.unbroken.append (unbroken_wrap ?_ ?_ h.label.unbroken)
    · cases n.shape <;> decide
    · cases n.shape <;> decide
  · rw [toList_line h.shape, hwrap]
    exact ⟨_, c, rest, rfl, h.id, isIdChar_of_isOpener hc, isBlank_of_isOpener hc⟩
  · rw [toList_line h.shape, Enclosure.getLast?_append_wrap, n.shape.stop_rule]
    rintro _ ⟨⟩
    right
    cases n.shape <;> decide

theorem Direction.kept_header (d : Direction) : Kept d.header.toList := by
  cases d <;> refine ⟨by decide, by decide, ?_, ?_⟩ <;> rintro c ⟨⟩ <;> decide

namespace Diagram.Printable

variable {d : Diagram} {e : Edge}

theorem isPrinted_line (h : d.Printable) (he : e ∈ d.edges) : IsPrinted e.line.toList := by
  have hsource := h.isId (h.source e he)
  have htarget := h.isId (h.target e he)
  have hglyph := (h.fits_reading he).forall_mem_glyph clear_standard
  obtain ⟨c, rest, hstart, hc⟩ := (h.fits_reading he).starts_glyph clear_standard
  obtain ⟨hid, hblank, -, -⟩ := isGlyphChar_iff.mp hc
  have hlabel : Text.Unbroken (labelText (e.label.map String.toList)) := by
    cases hl : e.label with
    | none => simp [labelText, Text.Unbroken]
    | some label => exact unbroken_wrap (by decide) (by decide) (h.label e he label hl).1.unbroken
  rw [e.toList_line, Edge.reading, EdgeReading.text_compact]
  refine ⟨?_, ?_, ?_⟩
  · refine hsource.unbroken.append (Text.Unbroken.append ?_ (hlabel.append htarget.unbroken))
    exact Text.unbroken_of_isBlank fun c hc => (isGlyphChar_iff.mp (hglyph c hc)).2.1
  · have hglyph : e.connector.glyph.toList = c :: rest := hstart
    rw [hglyph]
    exact ⟨_, c, _, rfl, hsource, hid, hblank⟩
  · intro c hc
    rw [← List.append_assoc, ← List.append_assoc, List.getLast?_append_of_ne_nil _ htarget.1] at hc
    exact .inl (htarget.2 c (List.mem_of_getLast? hc))

/-- No printed line is lost or changed when a text is cut into lines. -/
theorem kept_of_mem_lines (h : d.Printable) : ∀ line ∈ d.lines, Kept line.toList := by
  refine List.forall_mem_cons.mpr ⟨d.direction.kept_header, List.forall_mem_append.mpr ⟨?_, ?_⟩⟩
  · intro line hline
    obtain ⟨n, hn, rfl⟩ := List.mem_map.mp hline
    exact (h.node n hn).isPrinted_line.kept
  · intro line hline
    obtain ⟨e, he, rfl⟩ := List.mem_map.mp hline
    exact (h.isPrinted_line he).kept

end Diagram.Printable

/-! ### Reading the lines -/

namespace Registry

variable {registry : Registry}

theorem add_node_line {n : Node} (h : n.Printable) (hnew : n.id ∉ registry.nodes.map Node.id) :
    registry.add (.ofLine .standard n.line) = ⟨registry.nodes ++ [n], registry.edges⟩ := by
  have hstop : n.shape.rule.enclosure.stop ∉ n.label.toList := n.shape.stop_rule ▸ h.closer
  have hknown : (registry.nodes.any fun old => old.id == n.id) = false := by
    rw [List.any_eq_false]
    intro old hold heq
    exact hnew (List.mem_map.mpr ⟨old, hold, by simpa using heq⟩)
  have hnode : Node.ofDeclaration n.id n.label n.shape = n := by
    unfold Node.ofDeclaration
    rw [if_neg h.label.ne_empty, ← h.declared]
  rw [h.isPrinted_line.ofLine_eq, Node.toList_line h.shape,
    Statement.ofContent_declaration clear_standard rfl n.shape.rule_mem_standard h.id hstop,
    h.label.clean, Shape.shape_rule h.shape, String.ofList_toList]
  simp [add, register, hknown, hnode]

/-- The line of an edge between known nodes enters this edge. -/
theorem add_edge_line {d : Diagram} (h : d.Printable) {e : Edge} (he : e ∈ d.edges)
    (hknown : registry.nodes.map Node.id = d.ids) :
    registry.add (.ofLine .standard e.line) = ⟨registry.nodes, registry.edges ++ [e]⟩ := by
  have hany : ∀ id ∈ d.ids, (registry.nodes.any fun old => old.id == id) = true := by
    intro id hid
    rw [← hknown] at hid
    obtain ⟨old, hold, rfl⟩ := List.mem_map.mp hid
    exact List.any_eq_true.mpr ⟨old, hold, by simp⟩
  rw [(h.isPrinted_line he).ofLine_eq, e.toList_line,
    Statement.ofContent_compact clear_standard rfl (h.fits_reading he)]
  simp only [Rules.standard]
  rw [h.edge_reading he]
  have hsource : String.ofList e.reading.source = e.source := String.ofList_toList
  have htarget : String.ofList e.reading.target = e.target := String.ofList_toList
  simp [add, Statement.endpoints, register, hsource, htarget, hany _ (h.source e he),
    hany _ (h.target e he)]

theorem foldl_add_node_lines (registry : Registry) {nodes : List Node}
    (h : ∀ n ∈ nodes, n.Printable) (hnodup : ((registry.nodes ++ nodes).map Node.id).Nodup) :
    ((nodes.map Node.line).map (Statement.ofLine .standard)).foldl add registry =
      ⟨registry.nodes ++ nodes, registry.edges⟩ := by
  induction nodes generalizing registry with
  | nil => simp
  | cons n nodes ih =>
      obtain ⟨hn, h⟩ := List.forall_mem_cons.mp h
      have hnew : n.id ∉ registry.nodes.map Node.id := by
        rw [List.map_append, List.map_cons] at hnodup
        intro hmem
        exact List.disjoint_of_nodup_append hnodup hmem List.mem_cons_self
      rw [List.append_cons] at hnodup
      rw [List.map_cons, List.map_cons, List.foldl_cons, add_node_line hn hnew,
        ih _ h hnodup, List.append_assoc, List.singleton_append]

theorem foldl_add_edge_lines (registry : Registry) {d : Diagram} (h : d.Printable)
    {edges : List Edge} (hsub : edges ⊆ d.edges) (hknown : registry.nodes.map Node.id = d.ids) :
    ((edges.map Edge.line).map (Statement.ofLine .standard)).foldl add registry =
      ⟨registry.nodes, registry.edges ++ edges⟩ := by
  induction edges generalizing registry with
  | nil => simp
  | cons e edges ih =>
      obtain ⟨he, hsub⟩ := List.cons_subset.mp hsub
      rw [List.map_cons, List.map_cons, List.foldl_cons, add_edge_line h he hknown,
        ih ⟨registry.nodes, registry.edges ++ [e]⟩ hsub hknown, List.append_assoc,
        List.singleton_append]

end Registry

namespace Diagram

variable {d : Diagram}

/-- The header gives back the kind and the direction. -/
theorem ofLines_lines (d : Diagram) : Source.ofLines d.lines =
    .ok ⟨.flowchart, d.nodes.map Node.line ++ d.edges.map Edge.line, some d.direction.header,
      d.direction⟩ := by
  have hkind : DiagramKind.ofLine d.direction.header = .flowchart := by
    cases d.direction <;> decide
  have hdirection : Direction.ofHeader d.direction.header = d.direction := by
    cases d.direction <;> decide
  simp only [lines, Source.ofLines, hkind, hdirection]

/-- **Reading undoes printing.**  The text of a printable flowchart is read as this flowchart: its
direction, its nodes in their order and its edges in theirs. -/
theorem ofText_print (h : d.Printable) : ofText d.print = .ok d := by
  have hsource : Source.ofText d.print =
      .ok ⟨.flowchart, d.nodes.map Node.line ++ d.edges.map Edge.line, some d.direction.header,
        d.direction⟩ := by
    rw [Source.ofText, print, contentLines_intercalate h.kept_of_mem_lines, ofLines_lines]
  have hregistry : Registry.ofLines .standard (d.nodes.map Node.line ++ d.edges.map Edge.line) =
      ⟨d.nodes, d.edges⟩ := by
    unfold Registry.ofLines
    rw [List.map_append, List.foldl_append, Registry.foldl_add_node_lines .empty h.node h.nodup,
      Registry.foldl_add_edge_lines _ h (List.Subset.refl _) rfl]
    rfl
  unfold ofText ofTextWith
  rw [hsource]
  change ofSource .standard _ = _
  simp only [ofSource, hregistry]
  rw [if_neg (by simpa using h.nonempty), ← h.kind]

/-- Ids that are words of directives, and labels that look like shapes, edges or comments. -/
def tricky : Diagram where
  kind := .flowchart
  direction := .rightLeft
  nodes := [⟨"end", "a(b) --> c((d", .rectangle, true⟩, ⟨"class", "%% \x22it|; [x", .diamond, true⟩,
    ⟨"_", "(x", .ellipse, true⟩, ⟨"0", "((x] -.->", .rounded, true⟩]
  edges := [⟨"end", "class", some "style[x] --- y)z", .arrow⟩, ⟨"class", "_", none, .thick⟩,
    ⟨"0", "end", some "end((q))", .dotted⟩, ⟨"0", "0", some ";%%", .plain⟩]

theorem ofText_print_tricky : tricky.Printable ∧ ofText tricky.print = .ok tricky := by
  have h : tricky.Printable := by decide
  exact ⟨h, ofText_print h⟩

end Diagram

end Flowchart
