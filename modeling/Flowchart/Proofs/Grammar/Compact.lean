import Flowchart.Proofs.Grammar.Leftmost
import Flowchart.Proofs.Grammar.Unambiguous

/-! # Compact lines

A compact line holds one declaration and nothing else (`Statement.ofContent_declaration`), or one
edge without blanks between ends that it does not declare (`Statement.ofContent_compact`).  Labels
may hold anything but what closes them: an edge that seems to follow a declaration would need a
glyph behind the closing, the other rules declare nothing at the first column or only inside the
declaration, and what an edge label seems to declare lies between its bars. -/

namespace Flowchart.Grammar

/-! ### Declarations on their own -/

section
variable {rule : BracketRule} {id body : List Char}

theorem mem_suffixRules_iff : rule ∈ suffixRules ↔ rule ∈ BracketRule.standard := by
  simp only [suffixRules, BracketRule.standard, List.mem_cons, List.not_mem_nil, or_false]
  constructor
  · rintro (h | h | h | h) <;> simp [h]
  · rintro (h | h | h | h) <;> simp [h]

theorem isSuffix_of_mem_standard (hrule : rule ∈ BracketRule.standard)
    (hbody : rule.enclosure.stop ∉ body) : IsSuffix (some (rule, body)) := by
  rintro _ ⟨⟩
  exact ⟨mem_suffixRules_iff.mpr hrule, hbody⟩

/-- No edge starts with a declaration that ends the line: put an arrow behind it, and both readings
would have to agree on the column of the target. -/
theorem readEdge?_declaration {rules : List ConnectorRule} (hc : Clear rules) (hne : rules ≠ [])
    (hrule : rule ∈ BracketRule.standard) (hid : IsId id) (hbody : rule.enclosure.stop ∉ body) :
    readEdge? rules (id ++ rule.enclosure.wrap body) = none := by
  by_contra hsome
  obtain ⟨r, hr⟩ := Option.ne_none_iff_exists'.mp hsome
  obtain ⟨hfits, tail, hline, -⟩ := exists_of_readEdge? hr
  obtain ⟨connector, hconnector⟩ := List.exists_mem_of_ne_nil rules hne
  let longer : EdgeReading :=
    ⟨id, [], some (rule, body), [], connector.glyph, [], none, [], ['x']⟩
  have hlonger : longer.Fits rules :=
    ⟨hid, isGap_nil, isSuffix_of_mem_standard hrule hbody, isGap_nil,
      List.mem_map_of_mem hconnector, isGap_nil, by simp [longer], isGap_nil,
      show IsId ['x'] by decide⟩
  have htext : longer.text ++ [] =
      (id ++ rule.enclosure.wrap body) ++ (connector.glyph ++ ['x']) := by
    rw [EdgeReading.text_append]
    simp [longer, suffixText, labelText]
  have htext' : r.text ++ (tail ++ (connector.glyph ++ ['x'])) = longer.text ++ [] := by
    rw [htext, hline, List.append_assoc]
  have hcolumn := (hfits.agrees hc hlonger htext').1.targetColumn
  -- The target of the edge lies on the line, that of the longer one behind it.
  have htarget := List.length_pos_iff.mpr hfits.target.1
  have htarget' : longer.target.length = 1 := rfl
  have hlength := r.length_text_append tail
  have hlength' := longer.length_text_append []
  rw [← hline] at hlength
  rw [htext, List.append_nil] at hlength'
  simp only [List.length_append, List.length_singleton] at hlength hlength'
  omega

/-- The rules before a rule are others, and single parentheses come last. -/
theorem exists_standard_eq_append (hrule : rule ∈ BracketRule.standard) :
    ∃ before after, BracketRule.standard = before ++ rule :: after ∧
      ∀ earlier ∈ before, earlier ≠ rule ∧ earlier ≠ .rounded := by
  simp only [BracketRule.standard, List.mem_cons, List.not_mem_nil, or_false] at hrule
  rcases hrule with rfl | rfl | rfl | rfl
  · exact ⟨[], [.diamond, .ellipse, .rounded], rfl, by simp⟩
  · refine ⟨[.rectangle], [.ellipse, .rounded], rfl, ?_⟩
    simp [BracketRule.rectangle, BracketRule.diamond, BracketRule.rounded]
  · refine ⟨[.rectangle, .diamond], [.rounded], rfl, ?_⟩
    simp [BracketRule.rectangle, BracketRule.diamond, BracketRule.ellipse, BracketRule.rounded]
  · refine ⟨[.rectangle, .diamond, .ellipse], [], rfl, ?_⟩
    simp [BracketRule.rectangle, BracketRule.diamond, BracketRule.ellipse, BracketRule.rounded]

/-- An earlier rule declares nothing at the first column, unless something closes behind. -/
theorem column_pos_of_earlier {earlier : BracketRule} {d : Declaration} {rest : List Char}
    (hrule : rule ∈ BracketRule.standard) (hearlier : earlier ∈ BracketRule.standard)
    (hne : earlier ≠ rule) (hrounded : earlier ≠ .rounded) (hid : IsId id)
    (hbody : rule.enclosure.stop ∉ body) (hrest : Stops isCloser rest)
    (h : earlier.Declares (id ++ (rule.enclosure.wrap body ++ rest)) d) : 0 < d.column := by
  rw [Nat.pos_iff_ne_zero]
  intro hcolumn
  obtain ⟨id', body', rest', hdrop, hid', hbody'⟩ := h.exists_drop_eq
  rw [hcolumn, List.drop_zero] at hdrop
  obtain ⟨-, heq⟩ := run_append_inj hid.2 hid'.2
    ((BracketRule.detached_of_mem_standard hrule).stops_wrap body rest)
    ((BracketRule.detached_of_mem_standard hearlier).stops_wrap body' rest') hdrop
  rw [← mem_suffixRules_iff] at hrule hearlier
  have hhead : rule.enclosure.opening.head? = earlier.enclosure.opening.head? := by
    rw [← head?_wrap_append (opening_ne_nil hrule) body rest, heq,
      head?_wrap_append (opening_ne_nil hearlier)]
  rcases eq_or_parentheses_of_head? hrule hearlier hhead with rfl | ⟨-, rfl⟩ | ⟨rfl, rfl⟩
  · exact hne rfl
  · exact hrounded rfl
  · exact ellipse_wrap_append_ne hbody' hbody hrest heq.symm

/-- A shape right behind an identifier is what is declared there first, unless something closes
behind it. -/
theorem firstAt?_zero_eq_some {rest : List Char} {excluded : Option Span}
    (hrule : rule ∈ BracketRule.standard) (hid : IsId id) (hbody : rule.enclosure.stop ∉ body)
    (hrest : Stops isCloser rest) (hcovers : covers excluded 0 = false) :
    firstAt? (fun other => other.declaredAt? (id ++ (rule.enclosure.wrap body ++ rest)))
      BracketRule.standard excluded 0 = some (rule.declarationAt 0 id body) := by
  obtain ⟨before, after, hstandard, hbefore⟩ := exists_standard_eq_append hrule
  refine firstAt?_eq_some_iff.mpr ⟨hcovers, before, rule, after, hstandard, ?_, ?_⟩
  · refine (BracketRule.detached_of_mem_standard hrule).declaredAt?_eq_some_iff.mpr ⟨?_, rfl⟩
    exact @BracketRule.Declares.intro rule [] id body rest hid hbody (by simp)
  · intro earlier hearlier
    obtain ⟨hne, hrounded⟩ := hbefore earlier hearlier
    have hmem : earlier ∈ BracketRule.standard := by
      rw [hstandard]
      exact List.mem_append_left _ hearlier
    by_contra hsome
    obtain ⟨d, hd⟩ := Option.ne_none_iff_exists'.mp hsome
    obtain ⟨hdeclares, hcolumn⟩ :=
      (BracketRule.detached_of_mem_standard hmem).declaredAt?_eq_some_iff.mp hd
    have := column_pos_of_earlier hrule hmem hne hrounded hid hbody hrest hdeclares
    omega

/-- A line that is a declaration declares nothing else. -/
theorem declarations_declaration (hrule : rule ∈ BracketRule.standard) (hid : IsId id)
    (hbody : rule.enclosure.stop ∉ body) :
    declarations ShapeRule.standard none (id ++ rule.enclosure.wrap body) =
      [⟨0, rule.span id body, String.ofList id, cleanLabel body, rule.shape⟩] := by
  have hcovers : covers none 0 = false := rfl
  have hfirst := firstAt?_zero_eq_some hrule hid hbody (stops_nil _) hcovers
  rw [List.append_nil] at hfirst
  rw [declarations_eq_singleton hfirst]
  · rw [BracketRule.declarationAt, Nat.zero_add]
  · intro e he
    obtain ⟨other, -, hdeclares, -⟩ := exists_of_mem_declarations he
    have hlt := hdeclares.column_lt
    rwa [List.length_append, ← BracketRule.span, ← Nat.zero_add (rule.span id body)] at hlt

end

/-! ### Edges without blanks -/

/-- The reading of an edge without blanks between ends that are not declared. -/
def EdgeReading.compact (source glyph : List Char) (label : Option (List Char))
    (target : List Char) : EdgeReading :=
  ⟨source, [], none, [], glyph, [], label, [], target⟩

section
variable {rules : List ConnectorRule} {source glyph target : List Char}
  {label : Option (List Char)}

theorem EdgeReading.fits_compact (hsource : IsId source)
    (hglyph : glyph ∈ rules.map ConnectorRule.glyph) (hlabel : ∀ body ∈ label, '|' ∉ body)
    (htarget : IsId target) : (compact source glyph label target).Fits rules where
  source := hsource
  gapSource := isGap_nil
  suffix := by simp [compact, IsSuffix]
  gapSuffix := isGap_nil
  glyph := hglyph
  gapGlyph := isGap_nil
  label := hlabel
  gapLabel := isGap_nil
  target := htarget

theorem EdgeReading.text_compact : (compact source glyph label target).text =
    source ++ (glyph ++ (Grammar.labelText label ++ target)) := by
  rw [← List.append_nil (text _), text_append]
  simp [compact, Grammar.suffixText]

/-- Outside of its label, no identifier of a compact edge line stands before an opener. -/
theorem EdgeReading.drop_text_compact_ne (hc : Clear rules)
    (h : (compact source glyph label target).Fits rules) {column : Nat}
    (hcolumn : covers (compact source glyph label target).labelSpan column = false)
    {id rest : List Char} (hid : IsId id) (hrest : Starts isOpener rest) :
    (compact source glyph label target).text.drop column ≠ id ++ rest := by
  intro heq
  have hopener : Stops isIdChar rest := hrest.stops fun _ => isIdChar_of_isOpener
  have hglyph : ∀ c ∈ glyph, isGlyphChar c = true := h.forall_mem_glyph hc
  have hgid : ∀ c, isGlyphChar c = true → isIdChar c = false :=
    fun c hg => (isGlyphChar_iff.mp hg).1
  rw [text_compact] at heq
  by_cases hsource : column ≤ source.length
  · -- In the source, the identifier goes up to the glyph.
    rw [List.drop_append_of_le_length hsource] at heq
    have hstart := (h.starts_glyph hc).append (Grammar.labelText label ++ target)
    have hrun : ∀ c ∈ source.drop column, isIdChar c = true :=
      fun c hmem => h.source.2 c (List.mem_of_mem_drop hmem)
    obtain ⟨-, rfl⟩ := run_append_inj hrun hid.2 (hstart.stops hgid) hopener heq
    exact hrest.not_stops (hstart.stops fun c hg => (isGlyphChar_iff.mp hg).2.2.1)
  obtain ⟨k, rfl⟩ := Nat.exists_eq_add_of_le (Nat.le_of_not_le hsource)
  rw [List.drop_length_add_append] at heq
  by_cases hk : k < glyph.length
  · -- A glyph holds no identifier.
    rw [List.drop_append_of_le_length (Nat.le_of_lt hk)] at heq
    have hne : glyph.drop k ≠ [] := by simpa using hk
    have hstart := starts_of_forall_mem hne fun c hmem => hglyph c (List.mem_of_mem_drop hmem)
    have hstops := (hstart.append (Grammar.labelText label ++ target)).stops hgid
    rw [heq] at hstops
    exact (hid.starts.append rest).not_stops hstops
  obtain ⟨j, rfl⟩ := Nat.exists_eq_add_of_le (Nat.le_of_not_lt hk)
  rw [List.drop_length_add_append] at heq
  -- The label is left out, and behind the target nothing is left.
  have hlabel : (Grammar.labelText label).length ≤ j := by
    cases label with
    | none => exact Nat.zero_le j
    | some body =>
        have hspan : (compact source glyph (some body) target).labelSpan =
            some (source.length + glyph.length,
              source.length + glyph.length + (Grammar.labelText (some body)).length) := by
          simp [labelSpan, labelText_eq, lead, compact, suffixText]
        rw [hspan, covers, Bool.and_eq_false_iff, decide_eq_false_iff_not,
          decide_eq_false_iff_not] at hcolumn
        omega
  obtain ⟨i, rfl⟩ := Nat.exists_eq_add_of_le hlabel
  rw [List.drop_length_add_append] at heq
  obtain ⟨c, rest, rfl, hopen⟩ := hrest
  have hmem : c ∈ target.drop i := by simp [heq]
  have hidChar := h.target.2 c (List.mem_of_mem_drop hmem)
  rw [isIdChar_of_isOpener hopen] at hidChar
  cases hidChar

theorem declarations_compact (hc : Clear rules)
    (h : (EdgeReading.compact source glyph label target).Fits rules) :
    declarations ShapeRule.standard (EdgeReading.compact source glyph label target).labelSpan
      (EdgeReading.compact source glyph label target).text = [] := by
  refine List.eq_nil_iff_forall_not_mem.mpr ?_
  intro d hd
  obtain ⟨rule, hrule, hdeclares, hcovers⟩ := exists_of_mem_declarations hd
  obtain ⟨id, body, rest, hdrop, hid, hbody⟩ := hdeclares.exists_drop_eq
  have hstart := (starts_suffixText (isSuffix_of_mem_standard hrule hbody)).append rest
  exact EdgeReading.drop_text_compact_ne hc h hcovers hid hstart hdrop

end

/-! ### What compact lines say -/

namespace Statement

variable {rules : Rules}

theorem ofContent_declaration (hc : Clear rules.connectors) (hs : rules.shapes = ShapeRule.standard)
    {rule : BracketRule} {id body : List Char} (hrule : rule ∈ BracketRule.standard) (hid : IsId id)
    (hbody : rule.enclosure.stop ∉ body) :
    ofContent rules (id ++ rule.enclosure.wrap body) =
      ⟨[⟨0, String.ofList id, some (cleanLabel body, rule.shape)⟩], none⟩ := by
  have hedge := readEdge?_declaration hc rules.connectors_ne_nil hrule hid hbody
  have hdeclared := declarations_declaration hrule hid hbody
  simp [ofContent, hedge, hs, hdeclared, Declaration.mention, sortBy, insertBy]

theorem ofContent_compact (hc : Clear rules.connectors) (hs : rules.shapes = ShapeRule.standard)
    {source glyph target : List Char} {label : Option (List Char)}
    (h : (EdgeReading.compact source glyph label target).Fits rules.connectors) :
    ofContent rules (EdgeReading.compact source glyph label target).text =
      ⟨endpoints (.compact source glyph label target),
        some (EdgeReading.edge rules.connectors (.compact source glyph label target))⟩ := by
  obtain ⟨found, hfound, ha, ht⟩ := h.exists_readEdge?_eq hc (stops_nil isIdChar)
  rw [List.append_nil] at hfound
  have hdeclared : declarations rules.shapes found.labelSpan
      (EdgeReading.compact source glyph label target).text = [] := by
    rw [← ha.labelSpan, hs]
    exact declarations_compact hc h
  have hedge : EdgeReading.edge rules.connectors (.compact source glyph label target) =
      found.edge rules.connectors := ha.edge_eq ht (congrArg _ ha.glyph)
  simp [ofContent, hfound, hdeclared, ← hedge, endpoints, ← ha.source, ← ha.targetColumn, ← ht,
    sortBy, insertBy]

end Statement

end Flowchart.Grammar
