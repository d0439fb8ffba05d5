import Flowchart.Proofs.Diagram.History
import Flowchart.Proofs.Grammar.Labelled

/-! # The shape behind a source

The reader of edges lets blanks stand between a source and its shape, where a declaration has none.
So the shape of a source is declared exactly if it stands right behind the source, and otherwise the
line mentions the source without a shape (`Statement.head?_mentions_of_suffix`).

Right behind the source, both readings take the same shape: double parentheses are tried before
single ones by the reader of edges and as a declaration, and what can be mistaken for them would
close where the glyph has to follow (`column_pos_of_earlier`). -/

namespace Flowchart.Grammar

variable {r : EdgeReading} {rule : BracketRule} {body tail : List Char}

theorem BracketRule.mention_declarationAt (rule : BracketRule) (column : Nat)
    (id body : List Char) : (rule.declarationAt column id body).mention =
      ⟨column, String.ofList id, some (cleanLabel body, rule.shape)⟩ := rfl

theorem EdgeReading.Fits.covers_labelSpan_zero {rules : List ConnectorRule} (h : r.Fits rules) :
    covers r.labelSpan 0 = false := by
  have hpos := List.length_pos_iff.mpr h.source.1
  rw [EdgeReading.labelSpan]
  cases r.label with
  | none => rfl
  | some label =>
      simp only [Option.map_some, covers, EdgeReading.lead, List.length_append,
        Bool.and_eq_false_iff, decide_eq_false_iff_not]
      omega

/-- A shape right behind the source of an edge is declared first. -/
theorem head?_declarations_of_attached (h : r.Fits ConnectorRule.standard)
    (hsuffix : r.suffix = some (rule, body)) (hgap : r.gapSource = []) (tail : List Char) :
    (declarations ShapeRule.standard r.labelSpan (r.text ++ tail)).head? =
      some (rule.declarationAt 0 r.source body) := by
  obtain ⟨hrule, hbody⟩ := h.suffix _ hsuffix
  have hbetween := h.between_gap clear_standard
  have htext : r.text ++ tail = r.source ++ (rule.enclosure.wrap body ++
      (r.gap ++ (r.labelText ++ (r.gapLabel ++ (r.target ++ tail))))) := by
    rw [EdgeReading.text, EdgeReading.Attached.lead_eq (.inr hgap), hsuffix, suffixText]
    simp only [List.append_assoc]
  rw [htext]
  exact head?_declarations (firstAt?_zero_eq_some (mem_suffixRules_iff.mp hrule) h.source hbody
    (stops_of_forall_mem_eq_false hbetween.ne_nil hbetween.closer _) h.covers_labelSpan_zero)

/-- With blanks behind it, the source of an edge is not declared. -/
theorem column_ne_zero_of_spaced (h : r.Fits ConnectorRule.standard) (hgap : r.gapSource ≠ [])
    {d : Declaration}
    (hd : d ∈ declarations ShapeRule.standard r.labelSpan (r.text ++ tail)) : d.column ≠ 0 := by
  intro hcolumn
  obtain ⟨rule, hrule, hdeclares, -⟩ := exists_of_mem_declarations hd
  rw [EdgeReading.text_append] at hdeclares
  refine not_declares_source hrule h.source (between_of_isGap hgap h.gapSource) ?_ hdeclares
  rw [hcolumn]
  exact List.length_pos_iff.mpr h.source.1

namespace Statement

theorem head?_mentions_ofContent {content : List Char} {m : Mention}
    (hm : m ∈ (ofContent .standard content).mentions) (hcolumn : m.column = 0) :
    (ofContent .standard content).mentions.head? = some m := by
  have hsorted := pairwise_column_ofContent (show Rules.standard.shapes = _ from rfl) content
  cases hmentions : (ofContent .standard content).mentions with
  | nil =>
      rw [hmentions] at hm
      cases hm
  | cons first later =>
      rw [hmentions] at hm hsorted
      rcases List.mem_cons.mp hm with rfl | hlater
      · rfl
      · have := (List.pairwise_cons.mp hsorted).1 m hlater
        omega

/-- **The shape of a source is declared right behind it.**  On a line that is no directive and
starts with an edge, the shape that was read behind the source is declared exactly if nothing stands
between the two.  The line mentions the source first, with that label and shape or without any. -/
theorem head?_mentions_of_suffix {line : String}
    (hdirective : isDirective (lineContent line) = false)
    (hread : readEdge? ConnectorRule.standard (lineContent line) = some r)
    (hsuffix : r.suffix = some (rule, body)) :
    (rule.declarationAt 0 r.source body ∈
      declarations ShapeRule.standard r.labelSpan (lineContent line) ↔ r.gapSource = []) ∧
    (ofLine .standard line).mentions.head? = some ⟨0, String.ofList r.source,
      if r.gapSource = [] then some (cleanLabel body, rule.shape) else none⟩ := by
  obtain ⟨hfits, tail, hline, -⟩ := exists_of_readEdge? hread
  have hdeclared : declared .standard (lineContent line) =
      declarations ShapeRule.standard r.labelSpan (r.text ++ tail) := by
    rw [← hline, declared, labelSpan, Rules.standard, hread]
    rfl
  have hofLine : ofLine .standard line = ofContent .standard (lineContent line) := by
    rw [ofLine, hdirective]
    rfl
  rw [hline, ← hdeclared, hofLine]
  by_cases hgap : r.gapSource = []
  · have hhead := head?_declarations_of_attached hfits hsuffix hgap tail
    have hmem := List.mem_of_mem_head? hhead
    rw [← hdeclared] at hmem
    refine ⟨iff_of_true hmem hgap, head?_mentions_ofContent ?_ rfl⟩
    have hmention := List.mem_map_of_mem (f := Declaration.mention) hmem
    rw [BracketRule.mention_declarationAt] at hmention
    rw [mem_mentions_ofContent, if_pos hgap]
    exact .inl hmention
  · have hcolumn : ∀ d ∈ declared .standard (lineContent line), d.column ≠ 0 := by
      rw [hdeclared]
      exact fun d hd => column_ne_zero_of_spaced hfits hgap hd
    refine ⟨iff_of_false (fun hmem => hcolumn _ hmem rfl) hgap, head?_mentions_ofContent ?_ rfl⟩
    rw [mem_mentions_ofContent, if_neg hgap]
    exact .inr ⟨r, hread, List.mem_cons_self, hcolumn⟩

deriving instance DecidableEq for Enclosure, BracketRule, EdgeReading

/-- Double parentheses around a bracket, and a label that seems to declare something. -/
theorem head?_mentions_of_suffix_ellipse :
    let line := "A((x [y')) -->|B[l]| C;"
    let r : EdgeReading :=
      ⟨['A'], [], some (.ellipse, "x [y'".toList), [' '], "-->".toList, [], some "B[l]".toList,
        [' '], ['C']⟩
    isDirective (lineContent line) = false ∧
    readEdge? ConnectorRule.standard (lineContent line) = some r ∧
    r.suffix = some (.ellipse, "x [y'".toList) ∧ r.gapSource = [] ∧
    ⟨0, 10, "A", "x [y'", .ellipse⟩ ∈
      declarations ShapeRule.standard r.labelSpan (lineContent line) ∧
    (ofLine .standard line).mentions.head? = some ⟨0, "A", some ("x [y'", .ellipse)⟩ := by
  intro line r
  have hdirective : isDirective (lineContent line) = false := by decide +kernel
  have hread : readEdge? ConnectorRule.standard (lineContent line) = some r := by decide +kernel
  obtain ⟨hdeclared, hmentioned⟩ := head?_mentions_of_suffix hdirective hread rfl
  exact ⟨hdirective, hread, rfl, rfl, hdeclared.mpr rfl, hmentioned⟩

/-- With a blank before its shape, a source loses its label and its shape. -/
theorem not_declares_spaced_source :
    let line := "A [Start] --> B"
    isDirective (lineContent line) = false ∧
    (readEdge? ConnectorRule.standard (lineContent line)).bind
      (fun r => r.suffix.map fun shape => (r.source, cleanLabel shape.2, shape.1.shape)) =
        some (['A'], "Start", .rectangle) ∧
    declarations ShapeRule.standard none (lineContent line) = [] ∧
    (ofLine .standard line).mentions = [⟨0, "A", none⟩, ⟨14, "B", none⟩] := by
  decide +kernel

end Statement

end Flowchart.Grammar
