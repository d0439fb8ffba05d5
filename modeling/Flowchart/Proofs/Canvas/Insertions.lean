import Flowchart.Proofs.Canvas.Preview
import Flowchart.Proofs.Markup.Tags

/-! # Tags that are read as markup

A marked picture is written segment by segment, and its runs are escaped one by one.  Behind an
inserted tag no backslash stands in front of a run, and behind a marked glyph that is a backslash
there are two.  Only a marked glyph and the line feed behind a row may come behind an odd number,
and a tag follows the glyph (`Calm`, `calm_segments`).  So every run is escaped as if nothing came
before it, and what may be read as a tag beside the inserted ones is a group that a run opens and
the segments behind it close (`Calm.forall_mem_insertedTags_iff`).

`tags_of_preview` is the result for previews.  A label whose first character is an opening bracket
can be read as a tag: this character is marked, and its run is cut behind it
(`exists_tag_of_preview_group`). -/

namespace Flowchart

open Markup (Sealed scanTags slashesAfter escapeChars groupBody?)

/-! ### Segments -/

/-- The strings that are inserted as tags, each with its position. -/
def insertedTags (position : Nat) : List Segment → List (Nat × List Char)
  | [] => []
  | .run run :: rest => insertedTags (position + (escapeChars run).length) rest
  | .tag tag :: rest => (position, tag.toList) :: insertedTags (position + tag.toList.length) rest

/-- Every run is sealed in front of what follows it. -/
def SealedSegments : List Segment → Prop
  | [] => True
  | .run run :: rest => Sealed (rest.flatMap Segment.text) 0 run ∧ SealedSegments rest
  | .tag _ :: rest => SealedSegments rest

instance decidableSealedSegments : (segs : List Segment) → Decidable (SealedSegments segs)
  | [] => isTrue trivial
  | .run run :: rest =>
    have := decidableSealedSegments rest
    inferInstanceAs (Decidable (Sealed (rest.flatMap Segment.text) 0 run ∧ _))
  | .tag _ :: rest => decidableSealedSegments rest

/-- Every run comes behind an even number of backslashes, or it is a single character, and a bracket
only in front of a tag. -/
def Calm (slashes : Nat) : List Segment → Prop
  | [] => True
  | .tag tag :: rest => IsTag tag ∧ Calm 0 rest
  | .run run :: rest =>
    (slashes % 2 = 0 ∨ ∃ d, run = [d] ∧ (d = '[' → ∃ tag rest', rest = .tag tag :: rest')) ∧
      Calm (slashesAfter slashes (escapeChars run)) rest

section
variable {segs rest : List Segment} {slashes position : Nat} {run : List Char} {d : Char}
  {tag : String}

theorem escapeChars_singleton (d : Char) :
    escapeChars [d] = if d = Text.backslash then [d, d] else [d] := by
  have hcut : Markup.Cut [d] [.char d] := by
    by_cases hd : d = Text.backslash
    · exact hd ▸ .loose rfl .nil
    · by_cases hd' : d = '['
      · exact hd' ▸ .bracket rfl .nil
      · exact .plain hd hd' .nil
  rw [escapeChars, hcut.pieces_eq, Markup.flatMap_escaped, Markup.guardedText_char,
    Markup.guardedText_nil, Markup.doubleLast]
  by_cases hd : d = Text.backslash
  · subst hd
    rfl
  · have hlone : Markup.endsInLoneBackslash [d] = false :=
      Markup.not_endsInLoneBackslash (by simpa using hd)
    rw [hlone, if_neg hd]
    rfl

theorem IsTag.slashesAfter_eq_zero (h : IsTag tag) (slashes : Nat) :
    slashesAfter slashes tag.toList = 0 := by
  obtain ⟨body, htag, -⟩ := h
  rw [htag, Markup.bracketed]
  exact Markup.slashesAfter_closed slashes ('[' :: body)

theorem IsTag.length_pos (h : IsTag tag) : 0 < tag.toList.length := by
  obtain ⟨body, htag, -⟩ := h
  rw [htag, Markup.bracketed, List.cons_append, List.length_cons]
  exact Nat.succ_pos _

theorem IsTag.scanTags_eq (h : IsTag tag) (after : List Char) (position slashes : Nat) :
    scanTags after position slashes tag.toList =
      if slashes % 2 = 0 then [(position, tag.toList)] else [] := by
  obtain ⟨body, htag, hbody⟩ := h
  rw [htag]
  exact (Markup.scanTags_group after position slashes 0 hbody []).trans (List.append_nil _)

theorem groupBody?_of_tag (h : Calm slashes (.tag tag :: rest)) :
    groupBody? ((Segment.tag tag :: rest).flatMap Segment.text) = none := by
  obtain ⟨body, htag, -⟩ := h.1
  rw [List.flatMap_cons, Segment.text, htag]
  exact Markup.groupBody?_cons_eq_none_iff.mpr fun hlead => absurd hlead (by decide)

theorem Calm.scanTags_run_eq_nil_iff (h : Calm slashes (.run run :: rest)) :
    scanTags (rest.flatMap Segment.text) position slashes (escapeChars run) = [] ↔
      Sealed (rest.flatMap Segment.text) 0 run := by
  obtain ⟨heven | ⟨d, rfl, htag⟩, hrest⟩ := h
  · have hparity : slashes % 2 = 0 % 2 := heven
    rw [Markup.scanTags_escapeChars_eq_nil_iff heven, Markup.sealed_congr hparity]
  · by_cases hd : d = '['
    · obtain ⟨tag, rest, rfl⟩ := htag hd
      have hnone := groupBody?_of_tag hrest
      subst hd
      refine iff_of_true ?_ ⟨fun _ _ _ => hnone, trivial⟩
      rw [escapeChars_singleton, if_neg (by decide), Markup.scanTags_cons, if_pos rfl,
        List.nil_append, Markup.tagAt_eq_nil_iff.mpr fun _ => hnone]
      rfl
    · have hrun : '[' ∉ [d] := by simpa using Ne.symm hd
      refine iff_of_true (Markup.scanTags_of_noBracket ?_) (Markup.sealed_of_noBracket hrun)
      rw [escapeChars_singleton]
      split <;> simpa using Ne.symm hd

theorem position_le_of_mem_insertedTags {t : Nat × List Char}
    (h : t ∈ insertedTags position segs) : position ≤ t.1 := by
  induction segs generalizing position with
  | nil => cases h
  | cons seg segs ih =>
      cases seg with
      | run run => exact (Nat.le_add_right _ _).trans (ih h)
      | tag tag =>
          rcases List.mem_cons.mp h with rfl | h
          · exact Nat.le_refl _
          · exact (Nat.le_add_right _ _).trans (ih h)

/-- All tags that are read are inserted ones exactly if every run is sealed. -/
theorem Calm.forall_mem_insertedTags_iff (h : Calm slashes segs) :
    (∀ t ∈ scanTags [] position slashes (segs.flatMap Segment.text),
      t ∈ insertedTags position segs) ↔ SealedSegments segs := by
  induction segs generalizing position slashes with
  | nil => exact iff_of_true (List.forall_mem_nil _) trivial
  | cons seg segs ih =>
      rw [List.flatMap_cons, Markup.scanTags_append, List.append_nil, List.forall_mem_append]
      cases seg with
      | run run =>
          rw [Segment.text, insertedTags, SealedSegments, ← h.scanTags_run_eq_nil_iff, ih h.2]
          refine and_congr_left fun _ => ⟨fun hin => ?_, fun hnil => ?_⟩
          · refine List.eq_nil_iff_forall_not_mem.mpr fun t ht => ?_
            have hlt := (Markup.position_of_mem_scanTags ht).2
            have hle := position_le_of_mem_insertedTags (hin t ht)
            omega
          · rw [hnil]
            exact List.forall_mem_nil _
      | tag tag =>
          have hrest := @ih 0 (position + tag.toList.length) h.2
          rw [Segment.text, insertedTags, SealedSegments, h.1.slashesAfter_eq_zero, ← hrest]
          constructor
          · intro hin t ht
            have hlt := (Markup.position_of_mem_scanTags ht).1
            have hpos := h.1.length_pos
            rcases List.mem_cons.mp (hin.2 t ht) with rfl | hmem
            · dsimp only at hlt
              omega
            · exact hmem
          · intro hin
            refine ⟨fun t ht => ?_, fun t ht => List.mem_cons_of_mem _ (hin t ht)⟩
            rw [h.1.scanTags_eq] at ht
            split at ht
            · exact List.mem_singleton.mp ht ▸ List.mem_cons_self
            · cases ht

/-! ### Segments of pictures -/

/-- A single character leaves an even number of backslashes even. -/
theorem slashesAfter_escapeChars_singleton (heven : slashes % 2 = 0) (d : Char) :
    slashesAfter slashes (escapeChars [d]) % 2 = 0 := by
  rw [escapeChars_singleton]
  split
  · next hd =>
      subst hd
      change (slashes + 1 + 1) % 2 = 0
      omega
  · next hd =>
      change Markup.slashesBehind slashes d % 2 = 0
      rw [Markup.slashesBehind, if_neg hd]

theorem calm_tags_append {tags : List String} (htags : ∀ tag ∈ tags, IsTag tag)
    (hrest : ∀ k, k % 2 = 0 → Calm k rest) (heven : slashes % 2 = 0) :
    Calm slashes (tags.map .tag ++ rest) := by
  induction tags generalizing slashes with
  | nil => exact hrest _ heven
  | cons tag tags ih =>
      obtain ⟨htag, htags⟩ := List.forall_mem_cons.mp htags
      exact ⟨htag, ih htags rfl⟩

/-- The segments of a marked cell may come behind any number of backslashes. -/
theorem Cell.calm_segments_append {cell : Cell} (hmarked : cell.isMarked = true)
    (htags : ∀ tag ∈ cell.opening ++ cell.closing, IsTag tag)
    (hglyph : ∃ d, cell.glyph.toList = [d]) (hrest : ∀ k, k % 2 = 0 → Calm k rest) :
    Calm slashes (cell.segments ++ rest) := by
  obtain ⟨hopening, hclosing⟩ := List.forall_mem_append.mp htags
  obtain ⟨d, hd⟩ := hglyph
  rw [segments, List.append_assoc, List.append_assoc, hd]
  cases hfront : cell.opening with
  | nil =>
      cases hback : cell.closing with
      | nil => simp [isMarked, hfront, hback] at hmarked
      | cons tag tags =>
          rw [hback] at hclosing
          obtain ⟨htag, htags⟩ := List.forall_mem_cons.mp hclosing
          exact ⟨.inr ⟨d, rfl, fun _ => ⟨tag, _, rfl⟩⟩, htag, calm_tags_append htags hrest rfl⟩
  | cons tag tags =>
      rw [hfront] at hopening
      obtain ⟨htag, htags⟩ := List.forall_mem_cons.mp hopening
      refine ⟨htag, calm_tags_append htags (fun k hk => ⟨.inl hk, ?_⟩) rfl⟩
      exact calm_tags_append hclosing hrest (slashesAfter_escapeChars_singleton hk d)

theorem calm_segmentsFrom_append {row : List Cell} (htagged : Tagged row)
    (hglyphs : ∀ cell ∈ row, ∃ d, cell.glyph.toList = [d]) (hrest : ∀ k, Calm k rest)
    (run : List Char) (heven : slashes % 2 = 0) :
    Calm slashes (segmentsFrom run row ++ rest) := by
  induction row generalizing run slashes with
  | nil => exact ⟨.inl heven, hrest _⟩
  | cons cell row ih =>
      obtain ⟨hcell, hrow⟩ := List.forall_mem_cons.mp hglyphs
      unfold segmentsFrom
      split
      · exact ih htagged.of_cons hrow run heven
      · split
        · next hmarked =>
            rw [List.cons_append, List.cons_append, List.append_assoc]
            refine ⟨.inl heven, Cell.calm_segments_append hmarked ?_ hcell ?_⟩
            · exact htagged cell List.mem_cons_self
            · exact fun k hk => ih htagged.of_cons hrow [] hk
        · exact ih htagged.of_cons hrow _ heven

theorem calm_joinedSegments {rows : List (List Cell)} (htagged : ∀ row ∈ rows, Tagged row)
    (hglyphs : ∀ row ∈ rows, ∀ cell ∈ row, ∃ d, cell.glyph.toList = [d])
    (heven : slashes % 2 = 0) : Calm slashes (joinedSegments rows) := by
  induction rows generalizing slashes with
  | nil => exact trivial
  | cons row rows ih =>
      obtain ⟨htag, htags⟩ := List.forall_mem_cons.mp htagged
      obtain ⟨hglyph, hglyphs⟩ := List.forall_mem_cons.mp hglyphs
      cases rows with
      | nil =>
          have hnil : ∀ k, Calm k [] := fun _ => trivial
          have hrow := calm_segmentsFrom_append htag hglyph hnil [] heven
          rw [List.append_nil] at hrow
          rwa [joinedSegments, List.map_singleton, List.intercalate_singleton]
      | cons next rows =>
          rw [joinedSegments, List.map_cons, List.map_cons, List.intercalate_cons_cons,
            List.append_assoc]
          refine calm_segmentsFrom_append htag hglyph (fun k => ?_) [] heven
          -- The line feed takes the backslashes of the row away.
          refine ⟨.inr ⟨'\n', rfl, fun hfeed => absurd hfeed (by decide)⟩, ih htags hglyphs ?_⟩
          rw [escapeChars_singleton]
          rfl

theorem calm_segments [Text.Measure] {elements : List Element} {style : String} {c : Canvas}
    (hdrawn : canvasOf elements style = .ok c) : Calm 0 c.segments := by
  have hsound := sound_of_canvasOf hdrawn
  have hchars := (Sketch.invariant_char _ _ _).of_canvasOf hdrawn
  refine calm_joinedSegments (fun row hrow => ?_) (fun row hrow cell hcell => ?_) rfl
  · exact hsound.tagged_of_mem_cells (mem_of_mem_shownRows hrow)
  · obtain ⟨y, hcells⟩ := Canvas.exists_of_mem_cells (mem_of_mem_shownRows hrow)
    obtain ⟨x, hx⟩ := List.mem_iff_getElem?.mp hcell
    exact hchars x y cell ((hcells x).trans hx)

/-! ### Sealed pictures -/

theorem sealedSegments_of_noOpening (h : ∀ seg ∈ segs, '[' ∉ seg.glyphs) :
    SealedSegments segs := by
  induction segs with
  | nil => exact trivial
  | cons seg segs ih =>
      obtain ⟨hseg, hsegs⟩ := List.forall_mem_cons.mp h
      cases seg with
      | run run => exact ⟨Markup.sealed_of_noBracket hseg, ih hsegs⟩
      | tag tag => exact ih hsegs

theorem Calm.untilClosing?_eq_none (hcalm : Calm slashes segs)
    (h : ∀ seg ∈ segs, ']' ∉ seg.glyphs) :
    Markup.untilClosing? (segs.flatMap Segment.text) = none := by
  induction segs generalizing slashes with
  | nil => rfl
  | cons seg segs ih =>
      obtain ⟨hseg, hsegs⟩ := List.forall_mem_cons.mp h
      rw [List.flatMap_cons]
      cases seg with
      | run run =>
          rw [Segment.text, Markup.untilClosing?_escapeChars_append]
          exact Markup.untilClosing?_append_eq_none (Markup.untilClosing?_eq_none hseg)
            (ih hcalm.2 hsegs)
      | tag tag =>
          obtain ⟨body, htag, -⟩ := hcalm.1
          rw [Segment.text, htag]
          exact (Markup.untilClosing?_cons_eq_none_iff (by decide)).mpr fun hne => absurd rfl hne

theorem Calm.sealedSegments_of_noClosing (hcalm : Calm slashes segs)
    (h : ∀ seg ∈ segs, ']' ∉ seg.glyphs) : SealedSegments segs := by
  induction segs generalizing slashes with
  | nil => exact trivial
  | cons seg segs ih =>
      have hsegs := (List.forall_mem_cons.mp h).2
      cases seg with
      | run run =>
          exact ⟨Markup.sealed_of_untilClosing? (hcalm.2.untilClosing?_eq_none hsegs),
            ih hcalm.2 hsegs⟩
      | tag tag => exact ih hcalm.2 hsegs

end

/-! ### Previews -/

section
variable [Text.Measure] {elements : List Element} {style : String} {c : Canvas}

theorem not_mem_glyphs_of_canvasOf (hdrawn : canvasOf elements style = .ok c) {bracket : Char}
    (hbracket : bracket ∈ ['[', ']']) (htexts : ∀ e ∈ elements, bracket ∉ e.text.toList) :
    ∀ seg ∈ c.segments, bracket ∉ seg.glyphs := by
  have hother : ∀ d, d ∉ ['[', ']'] → d ≠ bracket := fun d hd heq => hd (heq ▸ hbracket)
  have hglyphs : ∀ g ∈ [BoxGlyphs.square, .round, .diamond, .ascii], ∀ d ∈ g.toList,
      d ≠ bracket := fun g hg d hd => hother d <| of_decide_eq_true <|
    BoxGlyphs.of_mem_toList (p := fun d => decide (d ∉ ['[', ']'])) (by decide) hg d hd
  have hmade : MadeOf (· ≠ bracket) (BoxGlyphs.isAsciiName style)
      (elements.filterMap Element.shape?) (elements.filterMap Element.connector?) := by
    refine madeOf_elements (hother ' ' (by decide)) (hother Text.ellipsis (by decide))
      (fun e _ => hglyphs _ (e.glyphs_mem _)) (hglyphs _ (connectorGlyphs_mem _)) ?_
    rintro e he d hd rfl
    exact htexts e he hd
  have hholds : c.Holds (· ≠ bracket) := hmade.invariant_holds.of_canvasOf hdrawn
  have hsegments := hholds.of_mem_segments (hother '\n' (by decide))
  exact fun seg hseg hmem => hsegments seg hseg _ hmem rfl

/-- **Tags that are read are inserted ones.**  A marked preview is the text of the segments of its
canvas.  All tags that are read in it are tags that were inserted, at their places, exactly if every
run is sealed in front of what follows it; so it is if no label has an opening bracket, and if no
label has a closing one. -/
theorem tags_of_preview (hdrawn : canvasOf elements style = .ok c) :
    ∃ text, preview elements style true = .ok text ∧
      text.toList = c.segments.flatMap Segment.text ∧
      ((∀ t ∈ Markup.tags text.toList, t ∈ insertedTags 0 c.segments) ↔
        SealedSegments c.segments) ∧
      ((∀ e ∈ elements, '[' ∉ e.text.toList) ∨ (∀ e ∈ elements, ']' ∉ e.text.toList) →
        ∀ t ∈ Markup.tags text.toList, t ∈ insertedTags 0 c.segments) := by
  have hpreview : preview elements style true = .ok (c.picture true) := by
    rw [preview_eq, hdrawn]
    rfl
  have hsound := sound_of_canvasOf hdrawn
  have htext : (c.picture true).toList = c.segments.flatMap Segment.text :=
    Canvas.toList_picture (fun row hrow => hsound.backed_of_mem_cells hrow)
      fun row hrow => hsound.tagged_of_mem_cells hrow
  have hcalm := calm_segments hdrawn
  have hiff : (∀ t ∈ Markup.tags (c.picture true).toList, t ∈ insertedTags 0 c.segments) ↔
      SealedSegments c.segments := by
    rw [htext, Markup.tags_eq_scanTags]
    exact hcalm.forall_mem_insertedTags_iff
  refine ⟨_, hpreview, htext, hiff, fun hlabels => hiff.mpr ?_⟩
  rcases hlabels with hopening | hclosing
  · exact sealedSegments_of_noOpening (not_mem_glyphs_of_canvasOf hdrawn (by simp) hopening)
  · exact hcalm.sealedSegments_of_noClosing (not_mem_glyphs_of_canvasOf hdrawn (by simp) hclosing)

end

/-- Labels with brackets and backslashes, each of them sealed. -/
theorem tags_of_preview_shelf :
    ∃ c text, canvasOf shelf "unicode" = .ok c ∧ preview shelf "unicode" true = .ok text ∧
      SealedSegments c.segments ∧
      ∀ t ∈ Markup.tags text.toList, t ∈ insertedTags 0 c.segments := by
  have hdrawn : (fun c => decide (SealedSegments c.segments)) <$> canvasOf shelf "unicode" =
      .ok true := by
    decide +kernel
  obtain ⟨c, hc, hsealed⟩ := exists_of_map_eq_ok hdrawn
  have hsealed := of_decide_eq_true hsealed
  obtain ⟨text, htext, -, hiff, -⟩ := tags_of_preview hc
  exact ⟨c, text, hc, htext, hsealed, hiff.mpr hsealed⟩

/-- A label that starts with a bracket group: its first character is escaped alone, and the group is
read as a tag. -/
theorem exists_tag_of_preview_group :
    ∃ c text, canvasOf [plainShape "A" .rectangle 0 0 "[b] now"] "ascii" = .ok c ∧
      preview [plainShape "A" .rectangle 0 0 "[b] now"] "ascii" true = .ok text ∧
      ∃ t ∈ Markup.tags text.toList, t ∉ insertedTags 0 c.segments := by
  have hdrawn : (fun c : Canvas => decide (∃ t ∈ Markup.tags (c.picture true).toList,
      t ∉ insertedTags 0 c.segments)) <$>
        canvasOf [plainShape "A" .rectangle 0 0 "[b] now"] "ascii" = .ok true := by
    decide +kernel
  obtain ⟨c, hc, htag⟩ := exists_of_map_eq_ok hdrawn
  refine ⟨c, c.picture true, hc, ?_, of_decide_eq_true htag⟩
  rw [preview_eq, hc]
  rfl

end Flowchart
