import Flowchart.Proofs.Diagram.Closed
import Flowchart.Proofs.Text.Lines

/-! # Labels stand on lines

The reader cuts labels out of lines and drops characters from their ends, but it adds none: the
characters of a node's label or of an edge's label are on one line of the source
(`Registry.exists_line_of_mem_nodes`, `Registry.exists_line_of_mem_edges`).  A label of a text is
therefore free of line breaks (`Diagram.unbroken_label_of_ofText`). -/

namespace Flowchart

open Grammar

namespace Grammar

theorem unquote_subset (label : List Char) : unquote label ⊆ label := by
  unfold unquote
  split
  · exact List.Subset.refl []
  · next first rest =>
      split
      · exact List.Subset.trans (Text.trim_subset _)
          (List.Subset.trans (List.dropLast_subset rest) (List.subset_cons_self first rest))
      · exact List.Subset.refl _

theorem toList_cleanLabel_subset (raw : List Char) : (cleanLabel raw).toList ⊆ raw := by
  rw [cleanLabel, String.toList_ofList]
  exact List.Subset.trans (unquote_subset _) (Text.trim_subset raw)

theorem lineContent_subset (line : String) : lineContent line ⊆ line.toList :=
  List.Subset.trans (Text.trim_subset _) (Text.dropEndWhile_subset _ _)

theorem Enclosure.subset_wrap (e : Enclosure) (body : List Char) : body ⊆ e.wrap body :=
  fun c hc => by simp [wrap, hc]

/-! ### The pieces of a line -/

section
variable {rule : BracketRule} {line : List Char} {d : Declaration}

theorem BracketRule.Declares.id_subset (h : rule.Declares line d) : d.id.toList ⊆ line := by
  obtain ⟨hid, hbody, hfront⟩ := h
  rw [String.toList_ofList]
  exact fun c hc => by simp [hc]

theorem BracketRule.Declares.label_subset (h : rule.Declares line d) : d.label.toList ⊆ line := by
  obtain ⟨hid, hbody, hfront⟩ := h
  refine List.Subset.trans (toList_cleanLabel_subset _) ?_
  refine List.Subset.trans (rule.enclosure.subset_wrap _) ?_
  exact fun c hc => by simp [hc]

end

namespace EdgeReading

variable {r : EdgeReading} {body : List Char}

theorem source_subset (r : EdgeReading) : r.source ⊆ r.text :=
  fun c hc => by simp [text, lead, hc]

theorem target_subset (r : EdgeReading) : r.target ⊆ r.text :=
  List.subset_append_right _ _

theorem label_subset (h : r.label = some body) : body ⊆ r.text := by
  refine List.Subset.trans (bars.subset_wrap body) fun c hc => ?_
  rw [text, labelText, h]
  simp [hc]

end EdgeReading

/-! ### Statements -/

/-- A mention whose id and label stand on a line. -/
structure Mention.On (line : List Char) (m : Mention) : Prop where
  id : m.id.toList ⊆ line
  label : ∀ declared ∈ m.declared, declared.1.toList ⊆ line

namespace Statement

variable {rules : Rules} {content : List Char} {line : String} {m : Mention} {e : Edge}

theorem on_of_mem_ofContent (h : m ∈ (ofContent .standard content).mentions) : m.On content := by
  rcases (mem_mentions_ofContent m).mp h with h | ⟨r, hr, hm, -⟩
  · obtain ⟨d, hd, rfl⟩ := List.mem_map.mp h
    obtain ⟨rule, -, hdeclares, -⟩ := exists_of_mem_declarations hd
    refine ⟨hdeclares.id_subset, fun declared hdeclared => ?_⟩
    obtain rfl := Option.some.inj hdeclared
    exact hdeclares.label_subset
  · obtain ⟨-, tail, rfl, -⟩ := exists_of_readEdge? hr
    have htext : r.text ⊆ r.text ++ tail := List.subset_append_left _ _
    simp only [endpoints, List.mem_cons, List.not_mem_nil, or_false] at hm
    rcases hm with rfl | rfl
    · refine ⟨?_, fun _ hdeclared => by cases hdeclared⟩
      rw [String.toList_ofList]
      exact List.Subset.trans r.source_subset htext
    · refine ⟨?_, fun _ hdeclared => by cases hdeclared⟩
      rw [String.toList_ofList]
      exact List.Subset.trans r.target_subset htext

theorem on_of_mem_ofLine (h : m ∈ (ofLine .standard line).mentions) : m.On line.toList := by
  simp only [ofLine] at h
  split at h
  · cases h
  · obtain ⟨hid, hlabel⟩ := on_of_mem_ofContent h
    have hcontent := lineContent_subset line
    exact ⟨List.Subset.trans hid hcontent,
      fun declared hdeclared => List.Subset.trans (hlabel declared hdeclared) hcontent⟩

theorem label_subset_of_ofLine (h : (ofLine rules line).edge = some e) {label : String}
    (hlabel : e.label = some label) : label.toList ⊆ line.toList := by
  simp only [ofLine] at h
  split at h
  · cases h
  · obtain ⟨r, hr, rfl⟩ := Option.map_eq_some_iff.mp h
    obtain ⟨-, tail, hcontent, -⟩ := exists_of_readEdge? hr
    obtain ⟨body, hbody, rfl⟩ := Option.map_eq_some_iff.mp (Option.filter_eq_some_iff.mp hlabel).1
    refine List.Subset.trans (toList_cleanLabel_subset body) ?_
    refine List.Subset.trans (EdgeReading.label_subset hbody) ?_
    refine List.Subset.trans ?_ (lineContent_subset line)
    rw [hcontent]
    exact List.subset_append_left _ _

end Statement

end Grammar

/-! ### Diagrams -/

namespace Registry

variable {rules : Rules} {lines : List String}

/-- A node shows what was declared for its id, or the id itself. -/
theorem exists_line_of_mem_nodes {n : Node} (h : n ∈ (ofLines .standard lines).nodes) :
    ∃ line ∈ lines, n.label.toList ⊆ line.toList := by
  have hon : ∀ m ∈ history .standard lines, ∃ line ∈ lines, m.On line.toList := by
    intro m hm
    obtain ⟨line, hline, hm⟩ := List.mem_flatMap.mp hm
    exact ⟨line, hline, Statement.on_of_mem_ofLine hm⟩
  rw [nodes_ofLines] at h
  obtain ⟨id, hid, rfl⟩ := List.mem_map.mp h
  obtain ⟨m, hm, rfl⟩ := List.mem_map.mp (List.mem_eraseDups.mp hid)
  -- The declaration that counts may stand on another line than the first mention.
  have hown : ∃ line ∈ lines, m.id.toList ⊆ line.toList :=
    (hon m hm).imp fun line hline => ⟨hline.1, hline.2.id⟩
  unfold Node.ofHistory
  split
  · next label shape hfirst =>
      rw [Node.ofDeclaration]
      split
      · exact hown
      · obtain ⟨m', hm', hdeclared⟩ := List.exists_of_findSome?_eq_some hfirst
        split at hdeclared
        · exact (hon m' hm').imp fun line hline => ⟨hline.1, hline.2.label _ hdeclared⟩
        · cases hdeclared
  · exact hown

theorem exists_line_of_mem_edges {e : Edge} (h : e ∈ (ofLines rules lines).edges) {label : String}
    (hlabel : e.label = some label) : ∃ line ∈ lines, label.toList ⊆ line.toList := by
  rw [edges_ofLines] at h
  obtain ⟨line, hline, hedge⟩ := List.mem_filterMap.mp h
  exact ⟨line, hline, Statement.label_subset_of_ofLine hedge hlabel⟩

end Registry

theorem unbroken_of_mem_contentLines {text line : String} (h : line ∈ contentLines text) :
    Text.Unbroken line.toList := by
  obtain ⟨content, hcontent, rfl⟩ := List.mem_map.mp h
  obtain ⟨raw, hraw, rfl⟩ := List.mem_map.mp (List.mem_filter.mp hcontent).1
  rw [String.toList_ofList]
  exact (Text.unbroken_of_mem_splitLines hraw).mono (Text.trim_subset raw)

theorem Source.lines_subset_of_ofLines {lines : List String} {source : Source}
    (h : Source.ofLines lines = .ok source) : source.lines ⊆ lines := by
  cases lines with
  | nil => cases h
  | cons first rest =>
      rw [Source.ofLines] at h
      split at h <;> obtain rfl := Except.ok.inj h
      · exact List.Subset.refl _
      · exact List.subset_cons_self first rest
      · exact List.subset_cons_self first rest

theorem Diagram.unbroken_label_of_ofText {text : String} {d : Diagram} (h : ofText text = .ok d) :
    (∀ n ∈ d.nodes, Text.Unbroken n.label.toList) ∧
    ∀ e ∈ d.edges, ∀ label, e.label = some label → Text.Unbroken label.toList := by
  obtain ⟨source, htext, hsource⟩ := exists_ofSource_of_ofText h
  obtain ⟨-, rfl⟩ := ofSource_eq_ok_iff.mp hsource
  have hline : ∀ line ∈ source.lines, Text.Unbroken line.toList := fun line hline =>
    unbroken_of_mem_contentLines (Source.lines_subset_of_ofLines htext hline)
  refine ⟨fun n hn => ?_, fun e he label hlabel => ?_⟩
  · obtain ⟨line, hmem, hsub⟩ := Registry.exists_line_of_mem_nodes hn
    exact (hline line hmem).mono hsub
  · obtain ⟨line, hmem, hsub⟩ := Registry.exists_line_of_mem_edges he hlabel
    exact (hline line hmem).mono hsub

end Flowchart
