import Flowchart.Canvas.Picture
import Flowchart.Proofs.Markup.Reading
import Flowchart.Proofs.Text.Lines

/-! # Marked pictures

A row is backed when every tagged cell has a glyph at it or after it that is not blank.  Trimming
then never reaches a tag, so that the marked line of a row is made of its segments as they are
(`markedLine_eq`), and the plain line of the glyphs of these segments (`plainLine_eq`).

Reading a marked picture runs into the tags and into the glyphs that the canvas escaped run by run.
If each run is legible in front of what follows it, the reading is the plain picture
(`Canvas.untag_picture`). -/

namespace Flowchart

open Text (trimEnd)

/-! ### Tags and ink -/

/-- A tag that a marked text is read to have. -/
def IsTag (tag : String) : Prop := ∃ body, tag.toList = Markup.bracketed body ∧ Markup.IsBody body

/-- A cell shows one glyph, and it is not blank. -/
structure Cell.Inked (c : Cell) : Prop where
  shown : c.isShown = true
  glyph : ∃ d, c.glyph.toList = [d] ∧ Text.isBlank d = false

/-- Cells with a tag have ink at them or after them. -/
def Backed (row : List Cell) : Prop :=
  ∀ cell back, cell :: back <:+ row → cell.isMarked = true → ∃ c ∈ cell :: back, c.Inked

/-- The tags of the cells are read as tags. -/
def Tagged (row : List Cell) : Prop := ∀ cell ∈ row, ∀ tag ∈ cell.opening ++ cell.closing, IsTag tag

section
variable {cell : Cell} {row : List Cell} {run : List Char}

theorem Backed.of_cons (h : Backed (cell :: row)) : Backed row :=
  fun c back hback => h c back (hback.trans (List.suffix_cons _ _))

theorem Tagged.of_cons (h : Tagged (cell :: row)) : Tagged row :=
  fun c hc => h c (List.mem_cons_of_mem _ hc)

theorem mem_glyphs_of_inked (hc : cell ∈ row) (h : cell.Inked) :
    ∃ d ∈ glyphs row, Text.isBlank d = false := by
  obtain ⟨d, hd, hblank⟩ := h.glyph
  refine ⟨d, ?_, hblank⟩
  rw [glyphs, List.mem_flatMap]
  exact ⟨cell, List.mem_filter.mpr ⟨hc, h.shown⟩, by simp [hd]⟩

theorem trimEnd_glyphs_ne_nil (hc : cell ∈ row) (h : cell.Inked) : trimEnd (glyphs row) ≠ [] := by
  obtain ⟨d, hd, hblank⟩ := mem_glyphs_of_inked hc h
  intro hnil
  have hall := Text.dropEndWhile_eq_nil_iff.mp hnil d hd
  rw [hall] at hblank
  cases hblank

theorem glyphs_cons_of_shown (h : cell.isShown = true) :
    glyphs (cell :: row) = cell.glyph.toList ++ glyphs row := by
  rw [glyphs, List.filter_cons_of_pos h, List.flatMap_cons]
  rfl

theorem glyphs_cons_of_not_shown (h : ¬ cell.isShown = true) :
    glyphs (cell :: row) = glyphs row := by
  rw [glyphs, List.filter_cons_of_neg h]
  rfl

/-- Behind ink, or in front of it, nothing before is trimmed. -/
theorem trimEnd_glyphs_of_ink (hshown : cell.isShown = true)
    (hink : ∃ c ∈ cell :: row, c.Inked) (run : List Char) :
    trimEnd (run ++ glyphs (cell :: row)) = run ++ cell.glyph.toList ++ trimEnd (glyphs row) := by
  rw [glyphs_cons_of_shown hshown, ← List.append_assoc, trimEnd, Text.dropEndWhile_append]
  split
  · next hnil =>
      obtain ⟨c, hc, hinked⟩ := hink
      rcases List.mem_cons.mp hc with rfl | hc
      · obtain ⟨d, hd, hblank⟩ := hinked.glyph
        have hlast : ∀ e ∈ (run ++ c.glyph.toList).getLast?, Text.isBlank e = false := by
          rw [hd, List.getLast?_concat]
          simpa using hblank
        rw [trimEnd, hnil, List.append_nil, Text.dropEndWhile_eq_self hlast]
      · exact absurd hnil (trimEnd_glyphs_ne_nil hc hinked)
  · rfl

end

/-! ### The segments of a row -/

def Segment.glyphs : Segment → List Char
  | run glyphs => glyphs
  | tag _ => []

section
variable {cell : Cell} {row : List Cell} {run : List Char}

theorem flatMap_glyphs_tags (tags : List String) :
    (tags.map Segment.tag).flatMap Segment.glyphs = [] := by
  induction tags with
  | nil => rfl
  | cons tag tags ih => exact ih

theorem Cell.flatMap_glyphs_segments (c : Cell) :
    c.segments.flatMap Segment.glyphs = c.glyph.toList := by
  rw [segments, List.flatMap_append, List.flatMap_append, flatMap_glyphs_tags, flatMap_glyphs_tags]
  simp [Segment.glyphs]

/-- The segments of a backed row hold its glyphs up to the blanks at the end. -/
theorem flatMap_glyphs_segmentsFrom (h : Backed row) (run : List Char) :
    (segmentsFrom run row).flatMap Segment.glyphs = trimEnd (run ++ glyphs row) := by
  induction row generalizing run with
  | nil =>
      rw [segmentsFrom, List.flatMap_singleton, Segment.glyphs]
      exact congrArg trimEnd (List.append_nil run).symm
  | cons cell row ih =>
      unfold segmentsFrom
      split
      · next hshown =>
          rw [ih h.of_cons, glyphs_cons_of_not_shown (by simpa using hshown)]
      · next hshown =>
          have hshown : cell.isShown = true := by simpa using hshown
          split
          · next hmarked =>
              have hink := h cell row List.suffix_rfl hmarked
              rw [trimEnd_glyphs_of_ink hshown hink, List.cons_append, List.flatMap_cons,
                List.flatMap_append, cell.flatMap_glyphs_segments, ih h.of_cons,
                ← List.append_assoc]
              rfl
          · rw [ih h.of_cons, glyphs_cons_of_shown hshown, List.append_assoc]

theorem plainLine_eq (h : Backed row) : plainLine row = (segments row).flatMap Segment.glyphs :=
  (flatMap_glyphs_segmentsFrom h []).symm

end

/-! ### Texts of segments -/

section
variable {row : List Cell} {segs : List Segment}

theorem IsTag.getLast? {tag : String} (h : IsTag tag) : tag.toList.getLast? = some ']' := by
  obtain ⟨body, htag, -⟩ := h
  rw [htag, Markup.bracketed]
  exact List.getLast?_concat

/-- The text of segments ends with a tag or as their glyphs do. -/
theorem getLast?_flatMap_text (htags : ∀ tag, .tag tag ∈ segs → IsTag tag) :
    (segs.flatMap Segment.text).getLast? = some ']' ∨
      (segs.flatMap Segment.text).getLast? = (segs.flatMap Segment.glyphs).getLast? := by
  induction segs using List.reverseRecOn with
  | nil => exact .inr rfl
  | append_singleton segs seg ih =>
      rw [List.flatMap_append, List.flatMap_append, List.flatMap_singleton, List.flatMap_singleton,
        List.getLast?_append, List.getLast?_append]
      cases seg with
      | tag tag =>
          have htag := htags tag (by simp)
          exact .inl (by rw [Segment.text, htag.getLast?]; rfl)
      | run run =>
          rw [Segment.text, Segment.glyphs, Markup.getLast?_escapeChars]
          cases run.getLast? with
          | some c => exact .inr rfl
          | none => exact ih fun tag htag => htags tag (List.mem_append_left _ htag)

theorem tags_segmentsFrom (h : Tagged row) (run : List Char) :
    ∀ tag, .tag tag ∈ segmentsFrom run row → IsTag tag := by
  induction row generalizing run with
  | nil => simp [segmentsFrom]
  | cons cell row ih =>
      intro tag htag
      unfold segmentsFrom at htag
      split at htag
      · exact ih h.of_cons run tag htag
      · split at htag
        · rw [List.cons_append, List.mem_cons, List.mem_append] at htag
          rcases htag with htag | htag | htag
          · cases htag
          · refine h cell List.mem_cons_self tag ?_
            simpa [Cell.segments] using htag
          · exact ih h.of_cons [] tag htag
        · exact ih h.of_cons _ tag htag

theorem markedLine_eq (hbacked : Backed row) (htagged : Tagged row) :
    markedLine row = (segments row).flatMap Segment.text := by
  refine Text.dropEndWhile_eq_self fun c hc => ?_
  rcases getLast?_flatMap_text (tags_segmentsFrom htagged []) with hlast | hlast
  · rw [segments, hlast] at hc
    obtain rfl := Option.mem_some_iff.mp hc
    decide
  · rw [segments, hlast, flatMap_glyphs_segmentsFrom hbacked] at hc
    exact Text.getLast?_dropEndWhile _ c hc

theorem segmentsFrom_of_not_marked (h : ∀ cell ∈ row, cell.isMarked = false) (run : List Char) :
    segmentsFrom run row = [.run (trimEnd (run ++ glyphs row))] := by
  induction row generalizing run with
  | nil => rw [segmentsFrom, glyphs, List.filter_nil, List.flatMap_nil, List.append_nil]
  | cons cell row ih =>
      obtain ⟨hcell, hrow⟩ := List.forall_mem_cons.mp h
      unfold segmentsFrom
      split
      · next hshown => rw [ih hrow, glyphs_cons_of_not_shown (by simpa using hshown)]
      · next hshown =>
          rw [if_neg (by simp [hcell]), ih hrow, glyphs_cons_of_shown (by simpa using hshown),
            List.append_assoc]

theorem markedLine_eq_nil_iff (hbacked : Backed row) (htagged : Tagged row) :
    markedLine row = [] ↔ plainLine row = [] := by
  constructor
  · intro hnil
    rw [markedLine_eq hbacked htagged] at hnil
    rcases getLast?_flatMap_text (tags_segmentsFrom htagged []) with hlast | hlast
    · rw [← segments, hnil] at hlast
      cases hlast
    · rw [← segments, hnil, ← plainLine_eq hbacked] at hlast
      exact List.getLast?_eq_none_iff.mp hlast.symm
  · intro hnil
    have hplain : ∀ cell ∈ row, cell.isMarked = false := by
      intro cell hcell
      by_contra hmarked
      obtain ⟨front, back, rfl⟩ := List.append_of_mem hcell
      obtain ⟨c, hc, hinked⟩ := hbacked cell back (List.suffix_append _ _) (by simpa using hmarked)
      exact trimEnd_glyphs_ne_nil (List.mem_append_right front hc) hinked hnil
    rw [markedLine, segments, segmentsFrom_of_not_marked hplain, List.nil_append]
    change trimEnd ([Segment.run (plainLine row)].flatMap Segment.text) = []
    rw [hnil]
    rfl

/-! ### Reading segments -/

/-- Every run is legible in front of what follows it. -/
def LegibleSegments : List Segment → Prop
  | [] => True
  | .run run :: rest => Markup.Legible run (rest.flatMap Segment.text) ∧ LegibleSegments rest
  | .tag _ :: rest => LegibleSegments rest

instance decidableLegibleSegments : (segs : List Segment) → Decidable (LegibleSegments segs)
  | [] => isTrue trivial
  | .run run :: rest =>
    have := decidableLegibleSegments rest
    inferInstanceAs (Decidable (Markup.Legible run (rest.flatMap Segment.text) ∧ _))
  | .tag _ :: rest => decidableLegibleSegments rest

/-- What is read of legible segments is their glyphs. -/
theorem untag_flatMap_text (h : LegibleSegments segs) (htags : ∀ tag, .tag tag ∈ segs → IsTag tag) :
    Markup.untag (segs.flatMap Segment.text) = segs.flatMap Segment.glyphs := by
  induction segs with
  | nil => rfl
  | cons seg segs ih =>
      have hrest : ∀ tag, .tag tag ∈ segs → IsTag tag :=
        fun tag htag => htags tag (List.mem_cons_of_mem _ htag)
      rw [List.flatMap_cons, List.flatMap_cons]
      cases seg with
      | run run =>
          rw [Segment.text, h.1.untag_append, ih h.2 hrest]
          rfl
      | tag tag =>
          obtain ⟨body, htag, hbody⟩ := htags tag List.mem_cons_self
          have hread := Markup.untag_tag hbody 0 (segs.flatMap Segment.text)
          rw [Segment.text, htag]
          exact hread.trans (ih h hrest)

end

/-! ### Pictures -/

/-- The rows of a picture: all up to the last that shows something. -/
def shownRows (rows : List (List Cell)) : List (List Cell) :=
  (rows.reverse.dropWhile fun row => (plainLine row).isEmpty).reverse

/-- The segments of some rows, with line feeds between them. -/
def joinedSegments (rows : List (List Cell)) : List Segment :=
  [Segment.run ['\n']].intercalate (rows.map segments)

theorem flatMap_intercalate {α β : Type} (f : α → List β) (sep : List α) (parts : List (List α)) :
    (sep.intercalate parts).flatMap f =
      (sep.flatMap f).intercalate (parts.map fun part => part.flatMap f) := by
  induction parts with
  | nil => rfl
  | cons part parts ih =>
      cases parts with
      | nil => simp
      | cons next parts =>
          rw [List.intercalate_cons_cons, List.map_cons, List.map_cons, List.intercalate_cons_cons,
            List.flatMap_append, List.flatMap_append, ih, List.map_cons]

theorem mem_or_exists_of_mem_intercalate {α : Type} {a : α} {sep : List α} {parts : List (List α)}
    (h : a ∈ sep.intercalate parts) : a ∈ sep ∨ ∃ part ∈ parts, a ∈ part := by
  induction parts with
  | nil => cases h
  | cons part parts ih =>
      have hpart : a ∈ part → a ∈ sep ∨ ∃ part' ∈ part :: parts, a ∈ part' :=
        fun ha => .inr ⟨part, List.mem_cons_self, ha⟩
      cases parts with
      | nil => exact hpart (by simpa using h)
      | cons next parts =>
          rw [List.intercalate_cons_cons, List.append_assoc, List.mem_append, List.mem_append] at h
          rcases h with h | h | h
          · exact hpart h
          · exact .inl h
          · rcases ih h with hsep | ⟨part', hmem, ha⟩
            · exact .inl hsep
            · exact .inr ⟨part', List.mem_cons_of_mem _ hmem, ha⟩

theorem dropWhile_congr {α : Type} {p q : α → Bool} {l : List α} (h : ∀ a ∈ l, p a = q a) :
    l.dropWhile p = l.dropWhile q := by
  induction l with
  | nil => rfl
  | cons a l ih =>
      obtain ⟨ha, hl⟩ := List.forall_mem_cons.mp h
      rw [List.dropWhile_cons, List.dropWhile_cons, ha, ih hl]

/-- The lines that are kept are those of the rows that show something. -/
theorem dropEmptyLines_map {f : List Cell → List Char} {rows : List (List Cell)}
    (h : ∀ row ∈ rows, f row = [] ↔ plainLine row = []) :
    dropEmptyLines (rows.map f) = (shownRows rows).map f := by
  have hempty : ∀ row ∈ rows.reverse, (f row).isEmpty = (plainLine row).isEmpty := by
    intro row hrow
    rw [Bool.eq_iff_iff, List.isEmpty_iff, List.isEmpty_iff]
    exact h row (List.mem_reverse.mp hrow)
  rw [dropEmptyLines, shownRows, ← List.map_reverse, List.dropWhile_map, List.map_reverse]
  exact congrArg _ (congrArg _ (dropWhile_congr hempty))

theorem mem_of_mem_shownRows {rows : List (List Cell)} {row : List Cell}
    (h : row ∈ shownRows rows) : row ∈ rows :=
  List.mem_reverse.mp ((List.dropWhile_sublist _).mem (List.mem_reverse.mp h))

theorem toList_joinLines (lines : List (List Char)) :
    (joinLines lines).toList = ['\n'].intercalate lines := by
  have hlines : (lines.map String.ofList).map String.toList = lines := by
    rw [List.map_map]
    exact (List.map_congr_left fun _ _ => String.toList_ofList).trans (List.map_id lines)
  rw [joinLines, String.toList_intercalate, hlines]
  rfl

namespace Canvas

def segments (c : Canvas) : List Segment := joinedSegments (shownRows c.cells)

/-- A picture of lines that are made from the segments of their rows. -/
theorem toList_joinLines_map {f : List Cell → List Char} {g : Segment → List Char} {c : Canvas}
    (hfeed : g (.run ['\n']) = ['\n'])
    (hline : ∀ row ∈ c.cells, f row = (Flowchart.segments row).flatMap g)
    (hempty : ∀ row ∈ c.cells, f row = [] ↔ plainLine row = []) :
    (joinLines (dropEmptyLines (c.cells.map f))).toList = c.segments.flatMap g := by
  have hlines : (shownRows c.cells).map f =
      ((shownRows c.cells).map Flowchart.segments).map fun part => part.flatMap g := by
    rw [List.map_map]
    exact List.map_congr_left fun row hrow => hline row (mem_of_mem_shownRows hrow)
  rw [toList_joinLines, dropEmptyLines_map hempty, hlines, segments, joinedSegments,
    flatMap_intercalate, List.flatMap_singleton, hfeed]

/-- The marked picture is written segment by segment. -/
theorem toList_picture {c : Canvas} (hbacked : ∀ row ∈ c.cells, Backed row)
    (htagged : ∀ row ∈ c.cells, Tagged row) :
    (c.picture true).toList = c.segments.flatMap Segment.text :=
  toList_joinLines_map rfl (fun row hrow => markedLine_eq (hbacked row hrow) (htagged row hrow))
    fun row hrow => markedLine_eq_nil_iff (hbacked row hrow) (htagged row hrow)

/-- **What is read of a marked picture.**  If the rows are backed and every run is legible in front
of what follows it, the reading of the marked picture is the plain picture. -/
theorem untag_picture {c : Canvas} (hbacked : ∀ row ∈ c.cells, Backed row)
    (htagged : ∀ row ∈ c.cells, Tagged row) (h : LegibleSegments c.segments) :
    Markup.untag (c.picture true).toList = (c.picture false).toList := by
  have htags : ∀ tag, .tag tag ∈ c.segments → IsTag tag := by
    intro tag htag
    rcases mem_or_exists_of_mem_intercalate htag with hfeed | ⟨part, hpart, htag⟩
    · cases List.mem_singleton.mp hfeed
    · obtain ⟨row, hrow, rfl⟩ := List.mem_map.mp hpart
      exact tags_segmentsFrom (htagged row (mem_of_mem_shownRows hrow)) [] tag htag
  have hplain : (c.picture false).toList = c.segments.flatMap Segment.glyphs :=
    toList_joinLines_map rfl (fun row hrow => plainLine_eq (hbacked row hrow)) fun _ _ => Iff.rfl
  rw [toList_picture hbacked htagged, hplain, untag_flatMap_text h htags]

end Canvas

end Flowchart
