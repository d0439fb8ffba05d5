import Flowchart.Proofs.Diagram.Outcome

/-! # Content of texts that are put together

The pair of carriage return and line feed is one line break, so cutting a text apart can tear a
break and putting texts together can make one.  Two breaks in place of one add only an empty line.
Hence, but for empty lines, the lines of a text are the pieces between its breaks, whatever the
breaks are (`filter_splitLines`).  Empty lines hold no content, so that the content of a text is
read piece by piece (`contentLines_eq_contentOf`), and texts with breaks between them have the
content of each, in turn (`contentLines_append`).

What is content already is kept as it is (`kept_of_mem_contentLines`).  The laws for texts are
`contentLines_joined`. -/

namespace Flowchart.Text

/-! ### Pieces -/

/-- The pieces of a text between its line breaks. -/
def pieces (s : List Char) : List (List Char) := s.splitOnP isLineBreak

/-- A line holds a character. -/
def isInhabited (line : List Char) : Bool := !line.isEmpty

theorem pieces_cons {c : Char} (h : isLineBreak c = false) (s : List Char) :
    pieces (c :: s) = (pieces s).modifyHead (List.cons c) := by
  rw [pieces, List.splitOnP_cons_eq_if_modifyHead, if_neg (by simp [h]), pieces]

theorem pieces_append_break {c : Char} (h : isLineBreak c = true) (s t : List Char) :
    pieces (s ++ c :: t) = pieces s ++ pieces t := List.splitOnP_append_cons s t h

theorem pieces_break {c : Char} (h : isLineBreak c = true) (s : List Char) :
    pieces (c :: s) = [] :: pieces s := pieces_append_break h [] s

theorem filter_isInhabited_nil_cons (lines : List (List Char)) :
    ([] :: lines).filter isInhabited = lines.filter isInhabited := by
  rw [List.filter_cons_of_neg (by decide)]

theorem filter_isInhabited_headD_cons {lines rest : List (List Char)}
    (h : rest.filter isInhabited = lines.tail.filter isInhabited) :
    (lines.headD [] :: rest).filter isInhabited = lines.filter isInhabited := by
  cases lines with
  | nil => rw [List.headD_nil, filter_isInhabited_nil_cons, h, List.tail_nil]
  | cons first lines => rw [List.headD_cons, List.filter_cons, List.filter_cons, h, List.tail_cons]

/-- Lines and pieces start alike, and go on alike but for empty ones.  The start is kept apart, as a
character in front of the text goes to the first line even if this is empty. -/
theorem exists_pieces_eq (s : List Char) : ∃ rest, pieces s = (splitLines s).headD [] :: rest ∧
    rest.filter isInhabited = (splitLines s).tail.filter isInhabited := by
  induction s using splitLines.induct with
  | case1 => exact ⟨[], rfl, by rw [splitLines_nil]; rfl⟩
  | case2 s ih =>
      obtain ⟨rest, hpieces, hrest⟩ := ih
      refine ⟨[] :: pieces s, ?_, ?_⟩
      · rw [pieces_break (by decide), pieces_break (by decide), splitLines]
        rfl
      · rw [filter_isInhabited_nil_cons, hpieces, filter_isInhabited_headD_cons hrest, splitLines]
        rfl
  | case3 c s hpair hbreak ih =>
      obtain ⟨rest, hpieces, hrest⟩ := ih
      have hlines : splitLines (c :: s) = [] :: splitLines s := by
        rw [splitLines, if_pos hbreak]
        exact hpair
      refine ⟨pieces s, ?_, ?_⟩
      · rw [pieces_break hbreak, hlines]
        rfl
      · rw [hpieces, filter_isInhabited_headD_cons hrest, hlines]
        rfl
  | case4 c s hpair hbreak ih =>
      obtain ⟨rest, hpieces, hrest⟩ := ih
      have hc : isLineBreak c = false := by simpa using hbreak
      refine ⟨rest, ?_, ?_⟩
      · rw [pieces_cons hc, hpieces, splitLines_cons hc]
        cases splitLines s <;> rfl
      · rw [hrest, splitLines_cons hc]
        cases splitLines s <;> rfl

/-- But for empty ones, the lines of a text are its pieces. -/
theorem filter_splitLines (s : List Char) :
    (splitLines s).filter isInhabited = (pieces s).filter isInhabited := by
  obtain ⟨rest, hpieces, hrest⟩ := exists_pieces_eq s
  rw [hpieces, filter_isInhabited_headD_cons hrest]

end Flowchart.Text

namespace Flowchart

open Text

/-! ### Content of lines -/

/-- The content of lines, trimmed. -/
def contentOf (lines : List (List Char)) : List String :=
  ((lines.map trim).filter isContent).map String.ofList

theorem contentOf_append (lines lines' : List (List Char)) :
    contentOf (lines ++ lines') = contentOf lines ++ contentOf lines' := by
  simp only [contentOf, List.map_append, List.filter_append]

theorem contentOf_filter_isInhabited (lines : List (List Char)) :
    contentOf (lines.filter isInhabited) = contentOf lines := by
  have hempty : ∀ line ∈ lines, isContent (trim line) = true → isInhabited line = true := by
    rintro (_ | ⟨c, line⟩) - h
    · exact absurd h (by decide)
    · rfl
  have hfilter : (lines.filter isInhabited).filter (isContent ∘ trim) =
      lines.filter (isContent ∘ trim) := by
    rw [List.filter_filter]
    exact List.filter_congr fun line hline => Bool.and_eq_left_iff_imp.mpr (hempty line hline)
  rw [contentOf, contentOf, List.filter_map, List.filter_map, hfilter]

theorem contentLines_eq_contentOf (text : String) :
    contentLines text = contentOf (pieces text.toList) := by
  rw [← contentOf_filter_isInhabited, ← filter_splitLines, contentOf_filter_isInhabited]
  rfl

/-! ### Texts one after the other -/

/-- What stands between lines: line breaks, one at least. -/
def IsSeparator (sep : String) : Prop := sep.toList ≠ [] ∧ ∀ c ∈ sep.toList, isLineBreak c = true

instance (sep : String) : Decidable (IsSeparator sep) :=
  decidable_of_iff (sep.toList.isEmpty = false ∧ sep.toList.all isLineBreak = true)
    (by simp [IsSeparator])

theorem contentOf_pieces_breaks {breaks : List Char} (h : ∀ c ∈ breaks, isLineBreak c = true)
    (s : List Char) : contentOf (pieces (breaks ++ s)) = contentOf (pieces s) := by
  induction breaks with
  | nil => rfl
  | cons c breaks ih =>
      obtain ⟨hc, hbreaks⟩ := List.forall_mem_cons.mp h
      rw [List.cons_append, pieces_break hc, ← contentOf_filter_isInhabited,
        filter_isInhabited_nil_cons, contentOf_filter_isInhabited, ih hbreaks]

/-- A text in two parts, with line breaks between them, has the content of the parts. -/
theorem contentLines_append {sep : String} (h : IsSeparator sep) (a b : String) :
    contentLines (a ++ sep ++ b) = contentLines a ++ contentLines b := by
  obtain ⟨hne, hbreaks⟩ := h
  simp only [contentLines_eq_contentOf, String.toList_append]
  cases hsep : sep.toList with
  | nil => exact absurd hsep hne
  | cons c breaks =>
      rw [hsep] at hbreaks
      obtain ⟨hc, hbreaks⟩ := List.forall_mem_cons.mp hbreaks
      rw [List.append_assoc, List.cons_append, pieces_append_break hc, contentOf_append,
        contentOf_pieces_breaks hbreaks]

theorem kept_of_mem_contentLines {text line : String} (h : line ∈ contentLines text) :
    Kept line.toList := by
  obtain ⟨content, hcontent, rfl⟩ := List.mem_map.mp h
  obtain ⟨htrimmed, hkept⟩ := List.mem_filter.mp hcontent
  obtain ⟨raw, hraw, rfl⟩ := List.mem_map.mp htrimmed
  rw [String.toList_ofList]
  exact ⟨hkept, (unbroken_of_mem_splitLines hraw).mono (trim_subset raw), head?_trim raw,
    getLast?_dropEndWhile (trimStart raw)⟩

/-- **Content is read line by line.**  Texts that a line feed joins have the content of each, also
where the line feed makes one break with a carriage return.  The content, joined by line feeds, is
its own content.  Lines that are left out, put in between any lines, change nothing in the
source. -/
theorem contentLines_joined (a b text : String) :
    contentLines (a ++ "\n" ++ b) = contentLines a ++ contentLines b ∧
    contentLines ("\n".intercalate (contentLines text)) = contentLines text ∧
    ∀ sep sep' skipped : String, IsSeparator sep → IsSeparator sep' →
      (∀ line ∈ splitLines skipped.toList, IsSkipped line) →
      Source.ofText (a ++ sep ++ skipped ++ sep' ++ b) = Source.ofText (a ++ sep ++ b) := by
  refine ⟨contentLines_append (by decide +kernel) a b, ?_, ?_⟩
  · exact contentLines_intercalate fun line hline => kept_of_mem_contentLines hline
  · intro sep sep' skipped hsep hsep' hskipped
    have hnone : contentLines skipped = [] := contentLines_eq_nil_iff.mpr hskipped
    have hcontent : contentLines (a ++ sep ++ skipped ++ sep' ++ b) =
        contentLines (a ++ sep ++ b) := by
      rw [contentLines_append hsep', contentLines_append hsep, hnone, List.append_nil,
        contentLines_append hsep]
    rw [Source.ofText, Source.ofText, hcontent]

/-- Two comments with a blank line between them, at breaks that are no line feeds alone. -/
def aside : String := " %% A --> C\x0b\t\r\n%%"

/-- Breaks that meet at the seams: a carriage return before a line feed, and one after it. -/
theorem contentLines_joined_seams :
    contentLines ("graph LR\r" ++ "\n" ++ "\nA --> B") = ["graph LR", "A --> B"] ∧
    contentLines ("\n".intercalate (contentLines " x\u0085%% no\u001c y\u001f")) = ["x", "y"] ∧
    IsSeparator "\n" ∧ IsSeparator "\u2028\r" ∧
    (∀ line ∈ splitLines aside.toList, IsSkipped line) ∧
    Source.ofText ("graph LR\r" ++ "\n" ++ aside ++ "\u2028\r" ++ "\nA --> B") =
      .ok ⟨.flowchart, ["A --> B"], some "graph LR", .leftRight⟩ := by
  have hfeed : IsSeparator "\n" := by decide +kernel
  have hother : IsSeparator "\u2028\r" := by decide +kernel
  have haside : ∀ line ∈ splitLines aside.toList, IsSkipped line :=
    contentLines_eq_nil_iff.mp (by decide +kernel)
  obtain ⟨happend, hagain, hinsert⟩ :=
    contentLines_joined "graph LR\r" "\nA --> B" " x\u0085%% no\u001c y\u001f"
  refine ⟨?_, ?_, hfeed, hother, haside, ?_⟩
  · rw [happend]
    decide +kernel
  · rw [hagain]
    decide +kernel
  · rw [hinsert _ _ _ hfeed hother haside]
    decide +kernel

end Flowchart
