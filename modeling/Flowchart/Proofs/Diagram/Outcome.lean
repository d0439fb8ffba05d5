import Flowchart.Proofs.Diagram.Closed
import Flowchart.Proofs.Grammar.Leftmost
import Flowchart.Proofs.Text.Lines

/-! # When a text is a diagram

A text without content lines is refused as empty (`Diagram.ofText_eq_error_emptyText_iff`).  Any
other text has a source, and it is refused for want of nodes if no line of the source speaks
(`Diagram.ofText_eq_error_noNodes_iff`): a line speaks if an edge starts it or something is declared
on it (`Statement.Speaks`).

Such a line is never lost.  A label is only left out of the declarations if there is an edge, which
mentions its ends; and what the scan of a rule passes over, it passes over for something that it has
found (`BracketRule.mem_occurrences_iff`).  What is cut off at the end of a line, semicolons and
blanks, is neither part of an edge nor of a declaration (`Statement.speaks_lineContent_iff`). -/

namespace Flowchart

open Grammar

/-! ### Lines that speak -/

namespace Grammar.Statement

variable {content : List Char}

/-- A line starts with an edge, or something is declared on it. -/
def Speaks (content : List Char) : Prop :=
  (∃ r : EdgeReading, r.Reads ConnectorRule.standard content) ∨
    ∃ rule ∈ BracketRule.standard, ∃ d, rule.Declares content d

/-- If something is declared on a line without an edge, something is kept. -/
theorem declarations_ne_nil {rules : List BracketRule} {rule : BracketRule} {d : Declaration}
    (hr : rule.Detached) (hrule : rule ∈ rules) (h : rule.Declares content d) :
    declarations (rules.map .ofBracket) none content ≠ [] := by
  -- Where the scan of the rule is inside of a declaration, it has found that one.
  have hfound : ∃ e, e ∈ rule.occurrences content := by
    by_cases hbusy : rule.Busy content d.column
    · obtain ⟨e, he, -⟩ := hbusy
      exact ⟨e, he⟩
    · exact ⟨d, BracketRule.mem_occurrences_iff.mpr
        ⟨hr.declaredAt?_eq_some_iff.mpr ⟨h, rfl⟩, hbusy⟩⟩
  obtain ⟨e, he⟩ := hfound
  have hmem : e ∈ candidates (rules.map .ofBracket) none content :=
    mem_candidates_ofBracket.mpr ⟨⟨rule, hrule, he⟩, rfl⟩
  rw [declarations]
  cases hcandidates : candidates (rules.map .ofBracket) none content with
  | nil =>
      rw [hcandidates] at hmem
      cases hmem
  | cons first later =>
      rw [keepApart, if_neg (Nat.not_lt_zero _)]
      exact List.cons_ne_nil _ _

theorem mentions_ofContent_eq_nil_iff :
    (ofContent .standard content).mentions = [] ↔ ¬ Speaks content := by
  constructor
  · intro hnil hspeaks
    cases hread : readEdge? ConnectorRule.standard content with
    | some r =>
        have hids := mem_ids_ofContent_of_mem_endpoints Rules.detached_standard hread
          (List.mem_cons_self ..)
        rw [ids, hnil] at hids
        cases hids
    | none =>
        rcases hspeaks with ⟨r, hr⟩ | ⟨rule, hrule, d, hd⟩
        · obtain ⟨found, hfound⟩ := hr.exists_readEdge?
          rw [hread] at hfound
          cases hfound
        · have hne := declarations_ne_nil (BracketRule.detached_of_mem_standard hrule) hrule hd
          obtain ⟨e, he⟩ := List.exists_mem_of_ne_nil _ hne
          have hspan : labelSpan .standard content = none := by
            rw [labelSpan, Rules.standard, hread]
            rfl
          have hmem : e.mention ∈ (ofContent .standard content).mentions := by
            rw [mem_mentions_ofContent, declared, hspan]
            exact .inl (List.mem_map_of_mem he)
          rw [hnil] at hmem
          cases hmem
  · intro hsilent
    rw [List.eq_nil_iff_forall_not_mem]
    intro m hm
    apply hsilent
    rcases (mem_mentions_ofContent m).mp hm with hm | ⟨r, hread, -, -⟩
    · obtain ⟨d, hd, -⟩ := List.mem_map.mp hm
      obtain ⟨rule, hrule, hdeclares, -⟩ := exists_of_mem_declarations hd
      exact .inr ⟨rule, hrule, d, hdeclares⟩
    · obtain ⟨hfits, tail, hline, -⟩ := exists_of_readEdge? hread
      exact .inl ⟨r, hfits, tail, hline.symm⟩

/-! ### The ends of lines -/

/-- What is cut off at the end of a line. -/
def isCut (c : Char) : Bool := c == ';' || Text.isBlank c

/-- A line is its content and what is cut off at its end, unless it starts with a blank. -/
theorem exists_lineContent_append {line : String}
    (h : ∀ c ∈ line.toList.head?, Text.isBlank c = false) :
    ∃ tail, line.toList = lineContent line ++ tail ∧ ∀ c ∈ tail, isCut c = true := by
  obtain ⟨marks, hline, hmarks⟩ := Text.exists_dropEndWhile_append (· == ';') line.toList
  obtain ⟨blanks, hfront, hblanks⟩ :=
    Text.exists_dropEndWhile_append Text.isBlank (Text.dropEndWhile (· == ';') line.toList)
  have hstart : Text.trimStart (Text.dropEndWhile (· == ';') line.toList) =
      Text.dropEndWhile (· == ';') line.toList := by
    apply Text.trimStart_eq_self
    intro c hc
    apply h
    rw [hline, List.head?_append, hc]
    rfl
  refine ⟨blanks ++ marks, ?_, ?_⟩
  · rw [lineContent, Text.trim, hstart, Text.trimEnd, ← List.append_assoc, ← hfront]
    exact hline
  · rw [List.forall_mem_append]
    refine ⟨fun c hc => ?_, fun c hc => ?_⟩
    · rw [isCut, hblanks c hc, Bool.or_true]
    · rw [isCut, hmarks c hc, Bool.true_or]

/-- A beginning of a line that does not end with what is cut off is a beginning of the content. -/
theorem prefix_of_prefix_append {s tail : List Char} (h : s <+: content ++ tail)
    (hlast : ∀ c ∈ s.getLast?, isCut c = false) (htail : ∀ c ∈ tail, isCut c = true) :
    s <+: content := by
  rcases List.prefix_or_prefix_of_prefix h (List.prefix_append content tail) with hs | ⟨t, rfl⟩
  · exact hs
  · cases hmem : t.getLast? with
    | none => rw [List.getLast?_eq_none_iff.mp hmem, List.append_nil]
    | some c =>
        have hcut := htail c (((List.prefix_append_right_inj content).mp h).subset
          (List.mem_of_getLast? hmem))
        rw [hlast c (by rw [List.getLast?_append, hmem]; rfl)] at hcut
        cases hcut

theorem Speaks.append (h : Speaks content) (tail : List Char) :
    Speaks (content ++ tail) := by
  rcases h with ⟨r, hfits, htext⟩ | ⟨rule, hrule, d, hd⟩
  · exact .inl ⟨r, hfits, htext.trans (List.prefix_append content tail)⟩
  · exact .inr ⟨rule, hrule, d, hd.append tail⟩

theorem isCut_of_isIdChar {c : Char} (h : isIdChar c = true) : isCut c = false := by
  rw [isCut, isBlank_of_isIdChar h, Bool.or_false, beq_eq_false_iff_ne]
  rintro rfl
  revert h
  decide

theorem speaks_lineContent_iff {line : String}
    (h : ∀ c ∈ line.toList.head?, Text.isBlank c = false) :
    Speaks (lineContent line) ↔ Speaks line.toList := by
  obtain ⟨tail, hline, htail⟩ := exists_lineContent_append h
  rw [hline]
  refine ⟨fun hspeaks => hspeaks.append tail, ?_⟩
  rintro (⟨r, hfits, htext⟩ | ⟨rule, hrule, d, hd⟩)
  · refine .inl ⟨r, hfits, prefix_of_prefix_append htext ?_ htail⟩
    intro c hc
    rw [EdgeReading.text, List.getLast?_append_of_ne_nil _ hfits.target.1] at hc
    exact isCut_of_isIdChar (hfits.target.2 c (List.mem_of_getLast? hc))
  · generalize hwhole : lineContent line ++ tail = whole at hd
    obtain @⟨front, id, body, rest, hid, hbody, hfront⟩ := hd
    have hstop : ∀ rule ∈ BracketRule.standard, isCut rule.enclosure.stop = false := by decide
    have hprefix : (front ++ id) ++ rule.enclosure.wrap body <+: lineContent line ++ tail :=
      ⟨rest, by rw [hwhole, List.append_assoc, List.append_assoc]⟩
    have hlast : ∀ c ∈ ((front ++ id) ++ rule.enclosure.wrap body).getLast?, isCut c = false := by
      intro c hc
      rw [Enclosure.getLast?_append_wrap] at hc
      obtain rfl := Option.some.inj hc
      exact hstop rule hrule
    obtain ⟨rest', hcontent⟩ := prefix_of_prefix_append hprefix hlast htail
    rw [← hcontent, List.append_assoc, List.append_assoc]
    exact .inr ⟨rule, hrule, _, .intro hid hbody hfront⟩

/-- A line mentions something exactly if it is no directive and speaks. -/
theorem mentions_ofLine_eq_nil_iff {line : String}
    (h : ∀ c ∈ line.toList.head?, Text.isBlank c = false) :
    (ofLine .standard line).mentions = [] ↔
      (isDirective (lineContent line) = false → ¬ Speaks line.toList) := by
  rw [ofLine, ← speaks_lineContent_iff h]
  cases isDirective (lineContent line) with
  | true => simp
  | false => simp [mentions_ofContent_eq_nil_iff]

end Grammar.Statement

/-! ### Lines of a text -/

/-- A line that is left out: it is blank or a comment. -/
def IsSkipped (line : List Char) : Prop :=
  Text.trim line = [] ∨ commentMark.toList <+: Text.trim line

/-- A line starts with the keyword of a diagram. -/
def isHeader (line : String) : Bool :=
  kindKeywords.any fun entry => entry.1.toList.isPrefixOf line.toList

/-- Lines without a header in front. -/
def withoutHeader : List String → List String
  | [] => []
  | first :: rest => if isHeader first then rest else first :: rest

/-- The lines of a text that are read. -/
def bodyLines (text : String) : List String := withoutHeader (contentLines text)

theorem contentLines_eq_nil_iff {text : String} :
    contentLines text = [] ↔ ∀ line ∈ Text.splitLines text.toList, IsSkipped line := by
  rw [contentLines, List.map_eq_nil_iff, List.filter_eq_nil_iff, List.forall_mem_map]
  refine forall₂_congr fun line _ => ?_
  rw [isContent, IsSkipped, Bool.and_eq_true, Bool.not_eq_true', Bool.not_eq_true', not_and_or,
    Bool.not_eq_false, Bool.not_eq_false, List.isEmpty_iff, List.isPrefixOf_iff_prefix]

theorem withoutHeader_sublist (lines : List String) : (withoutHeader lines).Sublist lines := by
  cases lines with
  | nil => exact .slnil
  | cons first rest =>
      rw [withoutHeader]
      split
      · exact List.sublist_cons_self first rest
      · exact List.Sublist.refl _

theorem length_bodyLines_le (text : String) : (bodyLines text).length ≤ text.length := by
  calc (bodyLines text).length
      ≤ (contentLines text).length := (withoutHeader_sublist _).length_le
    _ ≤ (Text.splitLines text.toList).length := by
        rw [contentLines, List.length_map]
        exact (List.length_filter_le _ _).trans_eq (List.length_map _)
    _ ≤ text.length := by
        rw [← String.length_toList]
        exact Text.length_splitLines_le text.toList

theorem isBlank_of_mem_bodyLines {text line : String} (h : line ∈ bodyLines text) :
    ∀ c ∈ line.toList.head?, Text.isBlank c = false := by
  obtain ⟨content, hcontent, rfl⟩ := List.mem_map.mp ((withoutHeader_sublist _).subset h)
  obtain ⟨raw, -, rfl⟩ := List.mem_map.mp (List.mem_filter.mp hcontent).1
  rw [String.toList_ofList]
  exact Text.head?_trim raw

theorem DiagramKind.ofLine_eq_unknown_iff {line : String} :
    DiagramKind.ofLine line = .unknown ↔ isHeader line = false := by
  have hkinds : ∀ entry ∈ kindKeywords, entry.2 ≠ .unknown := by decide
  rw [ofLine, isHeader, List.any_eq_false]
  cases hfind : kindKeywords.find? fun entry => entry.1.toList.isPrefixOf line.toList with
  | none => exact iff_of_true rfl (List.find?_eq_none.mp hfind)
  | some entry =>
      have hmem := List.mem_of_find?_eq_some hfind
      have hword : entry.1.toList.isPrefixOf line.toList = true := by
        simpa using List.find?_some hfind
      exact iff_of_false (hkinds entry hmem) fun hnone => hnone entry hmem hword

/-- Content makes a source of the lines that are read. -/
theorem Source.exists_ofLines {lines : List String} (h : lines ≠ []) :
    ∃ source, Source.ofLines lines = .ok source ∧ source.lines = withoutHeader lines := by
  cases lines with
  | nil => exact absurd rfl h
  | cons first rest =>
      have hunknown := @DiagramKind.ofLine_eq_unknown_iff first
      rw [ofLines, withoutHeader]
      cases hkind : DiagramKind.ofLine first with
      | unknown =>
          rw [hunknown.mp hkind]
          exact ⟨_, rfl, rfl⟩
      | flowchart =>
          rw [hkind] at hunknown
          rw [if_pos (by simpa using hunknown)]
          exact ⟨_, rfl, rfl⟩
      | _ =>
          rw [hkind] at hunknown
          rw [if_pos (by simpa using hunknown)]
          exact ⟨_, rfl, rfl⟩

/-! ### Diagrams of a text -/

/-- The first node is the one that is mentioned first. -/
theorem Registry.head?_map_id_ofLines (rules : Rules) (lines : List String) :
    ((ofLines rules lines).nodes.map Node.id).head? =
      (history rules lines).head?.map Mention.id := by
  rw [nodes_ofLines, map_id_nodesOf]
  cases history rules lines with
  | nil => rfl
  | cons m past => rw [List.map_cons, List.eraseDups_cons, List.head?_cons, List.head?_cons]; rfl

theorem Registry.nodes_ofLines_eq_nil_iff {rules : Rules} {lines : List String} :
    (ofLines rules lines).nodes = [] ↔
      ∀ line ∈ lines, (Statement.ofLine rules line).mentions = [] := by
  rw [← List.flatMap_eq_nil_iff, ← history, ← List.head?_eq_none_iff, ← List.head?_eq_none_iff,
    ← Option.map_eq_none_iff (f := Node.id), ← List.head?_map, head?_map_id_ofLines,
    Option.map_eq_none_iff]

namespace Diagram

variable {text : String}

theorem ofText_eq_of_ne_nil (h : contentLines text ≠ []) : ∃ source, source.lines = bodyLines text ∧
    ofText text = ofSource .standard source := by
  obtain ⟨source, hsource, hlines⟩ := Source.exists_ofLines h
  refine ⟨source, hlines, ?_⟩
  rw [ofText, ofTextWith, Source.ofText, hsource]
  rfl

/-- A text is refused as empty exactly if all its lines are left out. -/
theorem ofText_eq_error_emptyText_iff : ofText text = .error .emptyText ↔
    ∀ line ∈ Text.splitLines text.toList, IsSkipped line := by
  rw [← contentLines_eq_nil_iff]
  by_cases hnil : contentLines text = []
  · refine iff_of_true ?_ hnil
    rw [ofText, ofTextWith, Source.ofText, hnil]
    rfl
  · refine iff_of_false ?_ hnil
    obtain ⟨source, -, hsource⟩ := ofText_eq_of_ne_nil hnil
    rw [hsource, ofSource]
    split
    · exact fun h => by cases h
    · exact fun h => by cases h

/-- A text with content is refused exactly if none of its lines speaks. -/
theorem ofText_eq_error_noNodes_iff : ofText text = .error .noNodes ↔
    contentLines text ≠ [] ∧ ∀ line ∈ bodyLines text,
      isDirective (lineContent line) = false → ¬ Statement.Speaks line.toList := by
  by_cases hnil : contentLines text = []
  · rw [ofText_eq_error_emptyText_iff.mpr (contentLines_eq_nil_iff.mp hnil)]
    refine iff_of_false (fun h => by cases h) fun h => h.1 hnil
  · obtain ⟨source, hlines, hsource⟩ := ofText_eq_of_ne_nil hnil
    have hsilent : (Registry.ofLines .standard source.lines).nodes = [] ↔
        ∀ line ∈ bodyLines text,
          isDirective (lineContent line) = false → ¬ Statement.Speaks line.toList := by
      rw [Registry.nodes_ofLines_eq_nil_iff, hlines]
      exact forall₂_congr fun line hline =>
        Statement.mentions_ofLine_eq_nil_iff (isBlank_of_mem_bodyLines hline)
    rw [and_iff_right hnil, ← hsilent, hsource, ofSource, ← List.isEmpty_iff]
    split
    · next hempty => simp [hempty]
    · next hempty => simp [hempty]

/-- The diagram of a text is that of the lines that are read. -/
theorem eq_ofLines_of_ofText {d : Diagram} (h : ofText text = .ok d) :
    d.nodes = (Registry.ofLines .standard (bodyLines text)).nodes ∧
      d.edges = (Registry.ofLines .standard (bodyLines text)).edges := by
  have hne : contentLines text ≠ [] := by
    intro hnil
    rw [ofText_eq_error_emptyText_iff.mpr (contentLines_eq_nil_iff.mp hnil)] at h
    cases h
  obtain ⟨source, hlines, hsource⟩ := ofText_eq_of_ne_nil hne
  obtain ⟨-, rfl⟩ := ofSource_eq_ok_iff.mp (hsource.symm.trans h)
  rw [← hlines]
  exact ⟨rfl, rfl⟩

theorem length_edges_le_of_ofText {d : Diagram} (h : ofText text = .ok d) :
    d.edges.length ≤ text.length := by
  rw [(eq_ofLines_of_ofText h).2, Registry.edges_ofLines]
  exact (List.length_filterMap_le _ _).trans (length_bodyLines_le text)

end Diagram

end Flowchart
