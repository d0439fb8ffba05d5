import Flowchart.Proofs.Diagram.Closed
import Flowchart.Proofs.Grammar.Labelled
import Flowchart.Proofs.Text.Lines

/-! # Other words on an edge

The line `p|label|q` is read with other labels between its bars, where these are the bars of the
label of its edge (`IsLabel`).  All labels stand between the same readings of `p` and `q`, so what
the line says depends on the label by what it covers of `q`, and by the label of the edge
(`IsLabel.exists_ofLine`).  Brackets in `p` must be part of declarations there (`OpensDeclared`):
a shape after the source then stands right behind it (`EdgeReading.Fits.attached`).

Labels that are `Enclosure.Alike` for every shape cover the same, and columns do not reach the
registry, so the diagrams differ in the label of the edge alone
(`Diagram.exists_ofSource_relabel`).  A bracket that a label leaves open may cover the declaration
behind it (`Diagram.nodes_ofSource_relabel_ne`). -/

namespace Flowchart

open Grammar

namespace Grammar

/-! ### Lines with bars -/

/-- A line with a text between bars. -/
def barred (p label q : String) : String := p ++ "|" ++ label ++ "|" ++ q

/-- The first word of a directive ends before a bar, so what stands behind does not matter. -/
theorem isDirective_append_bar (front s t : List Char) :
    isDirective (front ++ '|' :: s) = isDirective (front ++ '|' :: t) := by
  -- The first word runs into the bar, which no directive holds, or a blank ends it before.
  by_cases hblank : ∀ c ∈ front, Text.isBlank c = false
  · have hnot : ∀ s, isDirective (front ++ '|' :: s) = false := by
      intro s
      have hbar : '|' ∈ Text.firstWord (front ++ '|' :: s) := by
        rw [Text.firstWord, List.takeWhile_append_of_pos (by simpa using hblank),
          List.takeWhile_cons_of_pos (by decide)]
        simp
      rw [isDirective, Bool.eq_false_iff]
      intro hmem
      have hnone : ∀ word ∈ directives, '|' ∉ word.toList := by decide
      apply hnone _ (List.contains_iff_mem.mp hmem)
      rwa [String.toList_ofList]
    rw [hnot, hnot]
  · have hword : ∀ s, Text.firstWord (front ++ '|' :: s) = Text.firstWord front := by
      intro s
      rw [Text.firstWord, List.takeWhile_append, if_neg]
      · rfl
      · intro hlength
        apply hblank
        have hall :=
          (List.takeWhile_prefix (l := front) fun c => !Text.isBlank c).eq_of_length hlength
        intro c hc
        rw [← hall] at hc
        simpa using List.mem_takeWhile_imp hc
    rw [isDirective, isDirective, hword, hword]

theorem lineContent_barred {p : String} (hp : Text.trimStart p.toList ≠ []) (label q : String) :
    lineContent (barred p label q) = Text.trimStart p.toList ++ (bars.wrap label.toList ++
      Text.trimEnd (Text.dropEndWhile (· == ';') q.toList)) := by
  have hline : (barred p label q).toList =
      (p.toList ++ '|' :: label.toList) ++ '|' :: q.toList := by
    simp [barred]
  -- Something is left of `p`, and a bar is neither a blank nor a semicolon.
  have hstart : ∀ t, Text.trimStart (p.toList ++ t) = Text.trimStart p.toList ++ t := by
    intro t
    rw [Text.trimStart, List.dropWhile_append, if_neg]
    · rfl
    · simpa [Text.trimStart] using hp
  rw [lineContent, hline, Text.dropEndWhile_append_cons (by decide), List.append_assoc, Text.trim,
    hstart, List.cons_append, ← List.cons_append, ← List.append_assoc, Text.trimEnd,
    Text.dropEndWhile_append_cons (by decide)]
  simp [Enclosure.wrap, bars, Text.trimEnd]

/-! ### Brackets before a label -/

/-- The characters that open a shape. -/
def isBracket (c : Char) : Bool :=
  BracketRule.standard.any fun rule => rule.enclosure.opening.contains c

/-- Every bracket that opens in a text is part of a declaration there. -/
def OpensDeclared (s : List Char) : Prop :=
  ∀ front c rest, s = front ++ c :: rest → isBracket c = true →
    ∃ rule ∈ BracketRule.standard, ∃ d, rule.Declares s d ∧ d.column ≤ front.length ∧
      front.length < d.stop

/-- What the scans find shows that a bracket is part of a declaration. -/
theorem opensDeclared_of_occurrences {s : List Char}
    (h : ∀ entry ∈ s.zipIdx, isBracket entry.1 = true → ∃ rule ∈ BracketRule.standard,
      ∃ d ∈ rule.occurrences s, d.column ≤ entry.2 ∧ entry.2 < d.stop) : OpensDeclared s := by
  rintro front c rest hline hc
  have hmem : (c, front.length) ∈ s.zipIdx := by
    rw [List.mk_mem_zipIdx_iff_getElem?, hline]
    simp
  obtain ⟨rule, hrule, d, hd, hcolumn, hstop⟩ := h _ hmem hc
  exact ⟨rule, hrule, d, BracketRule.declares_of_mem_occurrences hd, hcolumn, hstop⟩

theorem isOpener_of_isBracket {c : Char} (h : isBracket c = true) : isOpener c = true := by
  simp [isBracket, BracketRule.standard, BracketRule.rectangle, BracketRule.diamond,
    BracketRule.ellipse, BracketRule.rounded] at h
  rcases h with rfl | rfl | rfl <;> decide

/-- Blanks before a text only move what is declared there. -/
theorem BracketRule.Declares.exists_shift {rule : BracketRule} {blanks s : List Char}
    {d : Declaration} (h : rule.Declares (blanks ++ s) d) (hblanks : IsGap blanks) :
    ∃ e, rule.Declares s e ∧ d = e.shift blanks.length := by
  generalize hline : blanks ++ s = line at h
  obtain @⟨front, id, body, rest, hid, hbody, hfront⟩ := h
  rcases List.append_eq_append_iff.mp hline with ⟨extra, rfl, rfl⟩ | ⟨extra, rfl, hover⟩
  · refine ⟨_, .intro hid hbody ?_, ?_⟩
    · intro c hc
      apply hfront
      rw [List.getLast?_append, Option.mem_def.mp hc]
      rfl
    · simp [Declaration.shift]
      omega
  · cases extra with
    | nil =>
        rw [List.nil_append] at hover
        subst hover
        refine ⟨_, Declares.intro hid hbody (by simp : ∀ c ∈ [].getLast?, isIdChar c = false), ?_⟩
        simp [Declaration.shift]
        omega
    | cons c extra =>
        obtain ⟨d, id, rfl⟩ := List.exists_cons_of_ne_nil hid.1
        rw [List.cons_append, List.cons_append, List.cons.injEq] at hover
        have hblank : Text.isBlank c = true := hblanks c (by simp)
        have hchar := hid.2 d List.mem_cons_self
        rw [hover.1, isIdChar_of_isBlank hblank] at hchar
        cases hchar

theorem OpensDeclared.of_gap {blanks s : List Char} (h : OpensDeclared (blanks ++ s))
    (hblanks : IsGap blanks) : OpensDeclared s := by
  rintro front c rest rfl hc
  obtain ⟨rule, hrule, d, hdeclares, hcolumn, hstop⟩ :=
    h (blanks ++ front) c rest (List.append_assoc _ _ _).symm hc
  obtain ⟨e, he, rfl⟩ := hdeclares.exists_shift hblanks
  rw [List.length_append] at hcolumn hstop
  rw [Declaration.column_shift] at hcolumn
  rw [Declaration.stop_shift] at hstop
  exact ⟨rule, hrule, e, he, by omega, by omega⟩

/-- The bracket of a shape is part of a declaration only if the shape stands right behind the
source. -/
theorem EdgeReading.Fits.attached {rules : List ConnectorRule} {r : EdgeReading}
    (h : r.Fits rules) (hlead : OpensDeclared r.lead) : r.Attached := by
  cases hsuffix : r.suffix with
  | none => exact .inl hsuffix
  | some shape =>
      apply Or.inr
      by_contra hne
      obtain ⟨hrule, -⟩ := h.suffix shape hsuffix
      obtain ⟨c, more, hopening⟩ := List.exists_cons_of_ne_nil (opening_ne_nil hrule)
      have hbracket : isBracket c = true := by
        rw [isBracket, List.any_eq_true]
        exact ⟨shape.1, mem_suffixRules_iff.mp hrule, by simp [hopening]⟩
      obtain ⟨rest, hline⟩ : ∃ rest, r.lead = r.source ++ (r.gapSource ++ c :: rest) := by
        refine ⟨more ++ shape.2 ++ shape.1.enclosure.closing ++
          (r.gapSuffix ++ r.glyph ++ r.gapGlyph), ?_⟩
        simp [EdgeReading.lead, EdgeReading.suffixText, hsuffix, Enclosure.wrap, hopening]
      obtain ⟨rule, hrule, d, hdeclares, hcolumn, -⟩ :=
        hlead (r.source ++ r.gapSource) c rest (by rw [hline, List.append_assoc]) hbracket
      rw [hline] at hdeclares
      have hgap := between_of_isGap hne h.gapSource
      have hge : (r.source ++ r.gapSource).length ≤ d.column := by
        by_contra hlt
        exact not_declares_source hrule h.source hgap
          (hdeclares.column_lt_left hgap (by omega)) hdeclares
      have heq : d.column = (r.source ++ r.gapSource).length := by omega
      obtain ⟨id, body, rest', hdrop, hid, -⟩ := hdeclares.exists_drop_eq
      rw [heq, ← List.append_assoc, List.drop_left] at hdrop
      have hstops : Stops isIdChar (c :: rest) :=
        stops_cons.mpr (isIdChar_of_isOpener (isOpener_of_isBracket hbracket))
      rw [hdrop] at hstops
      exact (hid.starts.append _).not_stops hstops

/-! ### Another label -/

/-- The same reading with another label. -/
def EdgeReading.relabel (r : EdgeReading) (label : List Char) : EdgeReading :=
  { r with label := some label }

/-- A label as an edge shows it, if anything of it is left. -/
def shownLabel? (label : String) : Option String :=
  some (cleanLabel label.toList) |>.filter (· != "")

/-- The bars of a line are those of the label of its edge. -/
structure IsLabel (p label q : String) : Prop where
  read : isDirective (lineContent (barred p label q)) = false
  reading : ∃ r, readEdge? ConnectorRule.standard (lineContent (barred p label q)) = some r ∧
    r.lead = Text.trimStart p.toList ∧ r.label = some label.toList

theorem isLabel_iff {p label q : String} : IsLabel p label q ↔
    isDirective (lineContent (barred p label q)) = false ∧
      ∃ r ∈ readEdge? ConnectorRule.standard (lineContent (barred p label q)),
        r.lead = Text.trimStart p.toList ∧ r.label = some label.toList :=
  ⟨fun h => ⟨h.read, h.reading⟩, fun h => ⟨h.1, h.2⟩⟩

instance (p label q : String) : Decidable (IsLabel p label q) := decidable_of_iff _ isLabel_iff.symm

section
variable {rules : List ConnectorRule} {r : EdgeReading} {p q y z : String}

theorem EdgeReading.Fits.relabel (h : r.Fits rules) {label : List Char} (hlabel : '|' ∉ label) :
    (r.relabel label).Fits rules where
  __ := h
  label := by
    rintro _ ⟨⟩
    exact hlabel

theorem trimStart_ne_nil_of_lead (h : r.Fits rules) (hlead : r.lead = Text.trimStart p.toList) :
    Text.trimStart p.toList ≠ [] := by
  rw [← hlead, EdgeReading.lead]
  simp [h.source.1]

/-- All labels between the bars stand behind and before the same text. -/
theorem IsLabel.exists_fits (hy : IsLabel p y q) :
    ∃ (r : EdgeReading) (tail : List Char), r.Fits ConnectorRule.standard ∧
      r.lead = Text.trimStart p.toList ∧ r.label = some y.toList ∧ Stops isIdChar tail ∧
      ∀ label : String, lineContent (barred p label q) = (r.relabel label.toList).text ++ tail := by
  obtain ⟨r, hread, hlead, hlabel⟩ := hy.reading
  obtain ⟨hfits, tail, hline, htail⟩ := exists_of_readEdge? hread
  have hne := trimStart_ne_nil_of_lead hfits hlead
  refine ⟨r, tail, hfits, hlead, hlabel, htail, ?_⟩
  intro label
  -- What the reading has behind its label is what is left of `q`.
  rw [EdgeReading.text_append_eq_labelled hlabel, lineContent_barred hne, EdgeReading.labelled,
    hlead, List.append_assoc] at hline
  have hbehind := List.append_cancel_left (List.append_cancel_left hline)
  rw [EdgeReading.text_append_eq_labelled rfl, lineContent_barred hne, hbehind,
    EdgeReading.labelled, List.append_assoc]
  exact congrArg (· ++ _) hlead.symm

/-- What a line says with any label between its bars. -/
theorem IsLabel.exists_ofLine (hy : IsLabel p y q) (hp : OpensDeclared p.toList) :
    ∃ (r : EdgeReading) (tail : List Char), r.lead = Text.trimStart p.toList ∧ '|' ∉ y.toList ∧
      ∀ label : String, '|' ∉ label.toList →
        Statement.ofLine .standard (barred p label q) =
          ⟨r.firstMention :: (r.laterMentions (declarationsAfter BracketRule.standard
              (r.covered label.toList tail) (r.behind tail))).map
                (Mention.shift (r.labelled label.toList).length),
            some { r.edge ConnectorRule.standard with label := shownLabel? label }⟩ := by
  obtain ⟨r, tail, hfits, hlead, hlabel, htail, hline⟩ := hy.exists_fits
  refine ⟨r, tail, hlead, hfits.label _ hlabel, ?_⟩
  intro label hbar
  have hne := trimStart_ne_nil_of_lead hfits hlead
  have hread : isDirective (lineContent (barred p label q)) = false := by
    rw [← hy.read, lineContent_barred hne, lineContent_barred hne]
    exact isDirective_append_bar _ _ _
  have hattached : (r.relabel label.toList).Attached := by
    refine (hfits.relabel hbar).attached ?_
    show OpensDeclared r.lead
    rw [hlead]
    rw [← List.takeWhile_append_dropWhile (p := Text.isBlank) (l := p.toList)] at hp
    exact hp.of_gap fun c hc => List.mem_takeWhile_imp hc
  rw [Statement.ofLine, if_neg (by simp [hread]), hline]
  exact Statement.ofContent_labelled clear_standard rfl (hfits.relabel hbar)
    hattached rfl htail

/-- Labels that are alike say the same, further left or right, but for the label of the edge. -/
theorem IsLabel.exists_ofLine_alike (hy : IsLabel p y q) (hz : '|' ∉ z.toList)
    (hp : OpensDeclared p.toList)
    (halike : ∀ rule ∈ BracketRule.standard, rule.enclosure.Alike p.toList y.toList z.toList) :
    ∃ (first : Mention) (later : List Mention) (e : Edge), ∀ label ∈ [y, z], ∃ n,
      Statement.ofLine .standard (barred p label q) =
        ⟨first :: later.map (Mention.shift n), some { e with label := shownLabel? label }⟩ := by
  obtain ⟨r, tail, hlead, hbar, hline⟩ := hy.exists_ofLine hp
  have hcovered : ∀ rule ∈ BracketRule.standard,
      r.covered y.toList tail rule = r.covered z.toList tail rule := by
    intro rule hrule
    have hsame := halike rule hrule
    rw [← List.takeWhile_append_dropWhile (p := Text.isBlank) (l := p.toList)] at hsame
    rw [EdgeReading.covered, EdgeReading.covered, EdgeReading.labelled, EdgeReading.labelled, hlead]
    exact (BracketRule.regular_of_mem_standard hrule).overrun_eq_of_alike hsame.of_append
  have hdeclared :
      declarationsAfter BracketRule.standard (r.covered z.toList tail) (r.behind tail) =
        declarationsAfter BracketRule.standard (r.covered y.toList tail) (r.behind tail) := by
    unfold declarationsAfter
    refine congrArg (fun l => keepApart 0 (sortBy _ l)) (List.flatMap_congr fun rule hrule => ?_)
    rw [hcovered rule hrule]
  refine ⟨r.firstMention, r.laterMentions (declarationsAfter BracketRule.standard
    (r.covered y.toList tail) (r.behind tail)), r.edge ConnectorRule.standard, ?_⟩
  intro label hlabel
  refine ⟨(r.labelled label.toList).length, ?_⟩
  rcases List.mem_pair.mp hlabel with rfl | rfl
  · exact hline _ hbar
  · rw [hline _ hz, hdeclared]

end

end Grammar

/-! ### Diagrams -/

namespace Registry

theorem foldl_register_shift (n : Nat) (mentions : List Mention) (nodes : List Node) :
    (mentions.map (Mention.shift n)).foldl register nodes = mentions.foldl register nodes := by
  rw [List.foldl_map]
  rfl

variable {rules : Rules} {before after : List String} {line : String}

theorem nodes_ofLines_append_cons {first : Mention} {later : List Mention} {n : Nat}
    (h : (Statement.ofLine rules line).mentions = first :: later.map (Mention.shift n)) :
    (ofLines rules (before ++ line :: after)).nodes =
      (history rules after).foldl register
        ((first :: later).foldl register (ofLines rules before).nodes) := by
  rw [nodes_ofLines, nodes_ofLines, ← List.nil_append (history rules (before ++ _)),
    ← foldl_register_nodesOf, ← List.nil_append (history rules before), ← foldl_register_nodesOf,
    history, List.flatMap_append, List.flatMap_cons, h, List.foldl_append, List.foldl_append,
    List.foldl_cons, foldl_register_shift]
  rfl

theorem edges_ofLines_append_cons {e : Edge} (h : (Statement.ofLine rules line).edge = some e) :
    (ofLines rules (before ++ line :: after)).edges =
      (ofLines rules before).edges ++ e :: (ofLines rules after).edges := by
  simp only [edges_ofLines, List.filterMap_append, List.filterMap_cons, h]

theorem nodes_ofLines_ne_nil {first : Mention} {later : List Mention}
    (h : (Statement.ofLine rules line).mentions = first :: later) :
    (ofLines rules (before ++ line :: after)).nodes ≠ [] := by
  have hid : first.id ∈ (ofLines rules (before ++ line :: after)).nodes.map Node.id := by
    refine mem_map_id_ofLines.mpr ⟨line, by simp, ?_⟩
    rw [Statement.ids, h]
    exact List.mem_cons_self
  intro hnil
  rw [hnil] at hid
  cases hid

end Registry

namespace Diagram

variable {source : Source} {before after : List String} {p q y z : String}

/-- **The words on an edge do not touch the rest.**  Let the bars of a line be those of the label of
its edge, let all brackets before them be part of declarations there, and let the two labels be
alike for every shape: neither holds a character of its enclosure, or all that opens before the
second bar closes before it.  Then both texts have the same diagram, up to the label of this one
edge. -/
theorem exists_ofSource_relabel (hy : IsLabel p y q) (hz : '|' ∉ z.toList)
    (hp : OpensDeclared p.toList)
    (halike : ∀ rule ∈ BracketRule.standard, rule.enclosure.Alike p.toList y.toList z.toList) :
    ∃ (d : Diagram) (e : Edge) (edges : List Edge), ∀ label ∈ [y, z],
      ofSource .standard { source with lines := before ++ barred p label q :: after } =
        .ok { d with edges := (Registry.ofLines .standard before).edges ++
          { e with label := shownLabel? label } :: edges } := by
  obtain ⟨first, later, e, hline⟩ := hy.exists_ofLine_alike hz hp halike
  refine ⟨⟨source.kind, source.direction,
    (Registry.history .standard after).foldl Registry.register
      ((first :: later).foldl Registry.register (Registry.ofLines .standard before).nodes), []⟩,
    e, (Registry.ofLines .standard after).edges, ?_⟩
  intro label hlabel
  obtain ⟨n, hsays⟩ := hline label hlabel
  have hmentions := congrArg Statement.mentions hsays
  rw [ofSource_eq_ok_iff]
  refine ⟨Registry.nodes_ofLines_ne_nil hmentions, ?_⟩
  rw [Registry.nodes_ofLines_append_cons hmentions,
    Registry.edges_ofLines_append_cons (congrArg Statement.edge hsays)]

/-- A label with brackets of its own, or without, behind a source whose label leaves one open. -/
theorem exists_ofSource_relabel_brackets :
    IsLabel "A[x(y] -->" "f[x]" " B[T]" ∧ '|' ∉ "go".toList ∧
    OpensDeclared "A[x(y] -->".toList ∧
    (∀ rule ∈ BracketRule.standard,
      rule.enclosure.Alike "A[x(y] -->".toList "f[x]".toList "go".toList) ∧
    ∃ (d : Diagram) (e : Edge) (edges : List Edge), ∀ label ∈ ["f[x]", "go"],
      ofSource .standard { overlaps with
        lines := ["B --> C"] ++ barred "A[x(y] -->" label " B[T]" :: ["C(end)"] } =
        .ok { d with edges := (Registry.ofLines .standard ["B --> C"]).edges ++
          { e with label := shownLabel? label } :: edges } := by
  have hy : IsLabel "A[x(y] -->" "f[x]" " B[T]" := by decide +kernel
  have hz : '|' ∉ "go".toList := by decide +kernel
  have hp : OpensDeclared "A[x(y] -->".toList := opensDeclared_of_occurrences (by decide +kernel)
  have halike : ∀ rule ∈ BracketRule.standard,
      rule.enclosure.Alike "A[x(y] -->".toList "f[x]".toList "go".toList := by decide +kernel
  exact ⟨hy, hz, hp, halike, exists_ofSource_relabel hy hz hp halike⟩

/-- A bracket that a label leaves open takes the declaration of the target with it. -/
theorem nodes_ofSource_relabel_ne :
    IsLabel "A -->" "f[x" " B[Target]" ∧ IsLabel "A -->" "ok" " B[Target]" ∧
    (∀ label ∈ ["f[x", "ok"], '|' ∉ label.toList ∧ Text.Unbroken label.toList) ∧
    OpensDeclared "A -->".toList ∧
    ofSource .standard { overlaps with lines := [barred "A -->" "f[x" " B[Target]"] } =
      .ok ⟨.flowchart, .topBottom, [⟨"A", "A", .plain, false⟩, ⟨"B", "B", .plain, false⟩],
        [⟨"A", "B", some "f[x", .arrow⟩]⟩ ∧
    ofSource .standard { overlaps with lines := [barred "A -->" "ok" " B[Target]"] } =
      .ok ⟨.flowchart, .topBottom, [⟨"A", "A", .plain, false⟩, ⟨"B", "Target", .rectangle, true⟩],
        [⟨"A", "B", some "ok", .arrow⟩]⟩ := by
  refine ⟨by decide +kernel, by decide +kernel, by decide +kernel,
    opensDeclared_of_occurrences (by decide +kernel), by decide +kernel, by decide +kernel⟩

end Diagram

end Flowchart
