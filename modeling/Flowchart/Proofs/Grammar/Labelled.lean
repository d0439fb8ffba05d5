import Flowchart.Proofs.Grammar.Compact
import Flowchart.Proofs.Grammar.Overrun

/-! # Lines with a labelled edge

A label is left out of the declarations of its line by the column alone: what a rule finds inside of
the label is dropped after the rule has passed over it.  So a line with a label falls into two
parts, and the declarations behind the label are those of a scan that begins there with some
characters covered (`declarationsAfter`).  Before the label only the source can be declared, by a
shape right behind it (`EdgeReading.declarations_labelled`).

The columns behind the label are those of the second part, moved by the length of the first one, and
sorting does not mix the parts (`Statement.sortBy_mentions`).  What the line says is thus settled by
the source, the text behind the label and how much of it each rule has covered
(`Statement.ofContent_labelled`). -/

namespace Flowchart.Grammar

/-! ### Declarations in two parts -/

@[simp] theorem Declaration.column_shift (n : Nat) (d : Declaration) :
    (d.shift n).column = d.column + n := rfl

@[simp] theorem Declaration.stop_shift (n : Nat) (d : Declaration) :
    (d.shift n).stop = d.stop + n := rfl

section
variable {n free : Nat} {l : List Declaration}

theorem keepApart_map_shift (n free : Nat) (l : List Declaration) :
    keepApart (free + n) (l.map (Declaration.shift n)) =
      (keepApart free l).map (Declaration.shift n) := by
  induction l generalizing free with
  | nil => rfl
  | cons d l ih =>
      simp only [List.map_cons, keepApart, Declaration.column_shift, Declaration.stop_shift,
        Nat.add_lt_add_iff_right]
      split
      · exact ih free
      · rw [List.map_cons, ih]

theorem keepApart_of_forall_le (h : ∀ d ∈ l, free ≤ d.column) :
    keepApart free l = keepApart 0 l := by
  cases l with
  | nil => rfl
  | cons d l =>
      have := h d List.mem_cons_self
      rw [keepApart, keepApart, if_neg (by omega), if_neg (by omega)]

/-- Declarations behind all others are kept as on their own. -/
theorem keepApart_append_map_shift (h : ∀ d ∈ keepApart free l, d.stop ≤ n) (hfree : free ≤ n)
    (l' : List Declaration) : keepApart free (l ++ l'.map (Declaration.shift n)) =
      keepApart free l ++ (keepApart 0 l').map (Declaration.shift n) := by
  induction l generalizing free with
  | nil =>
      have hle : ∀ k ≤ n, keepApart k (l'.map (Declaration.shift n)) =
          keepApart 0 (l'.map (Declaration.shift n)) := by
        intro k hk
        apply keepApart_of_forall_le
        intro d hd
        obtain ⟨e, -, rfl⟩ := List.mem_map.mp hd
        rw [Declaration.column_shift]
        omega
      rw [List.nil_append, hle free hfree, ← hle (0 + n) (by omega), keepApart_map_shift]
      rfl
  | cons d l ih =>
      rw [List.cons_append, keepApart, keepApart]
      rw [keepApart] at h
      split
      · next hd =>
          rw [if_pos hd] at h
          exact ih h hfree
      · next hd =>
          rw [if_neg hd] at h
          obtain ⟨hstop, hl⟩ := List.forall_mem_cons.mp h
          rw [ih hl hstop, List.cons_append]

end

/-- What the rules declare on a text, of which each rule has some characters covered already. -/
def declarationsAfter (rules : List BracketRule) (covered : BracketRule → Nat) (s : List Char) :
    List Declaration :=
  keepApart 0 (sortBy (fun d e => d.column ≤ e.column)
    (rules.flatMap fun rule => rule.occurrencesFrom 0 false (covered rule) s))

/-- The declarations that start before a column. -/
def candidatesBefore (rules : List BracketRule) (column : Nat) (line : List Char) :
    List Declaration :=
  sortBy (fun d e => d.column ≤ e.column)
    ((rules.flatMap fun rule => rule.occurrences line).filter fun d => d.column < column)

theorem exists_occurrences_append (rule : BracketRule) {s : List Char}
    (hs : BracketRule.insideAfter false s = false) (rest : List Char) :
    ∃ found : List Declaration, (∀ d ∈ found, d.column < s.length) ∧
      rule.occurrences (s ++ rest) = found ++
        (rule.occurrencesFrom 0 false (rule.overrun rest false 0 s) rest).map
          (Declaration.shift s.length) := by
  obtain ⟨found, hfound, heq⟩ := rule.exists_occurrencesFrom_append 0 false 0 s rest
  rw [hs, rule.occurrencesFrom_add] at heq
  refine ⟨found, fun d hd => ?_, heq⟩
  have := hfound d hd
  omega

/-- Where a span is excluded, the declarations before it come first and those behind it last. -/
theorem candidates_append (rules : List BracketRule) {column : Nat} {s : List Char}
    (hcolumn : column ≤ s.length) (hs : BracketRule.insideAfter false s = false)
    (rest : List Char) : candidates (rules.map .ofBracket) (some (column, s.length)) (s ++ rest) =
      candidatesBefore rules column (s ++ rest) ++
        (sortBy (fun d e => d.column ≤ e.column) (rules.flatMap fun rule =>
          rule.occurrencesFrom 0 false (rule.overrun rest false 0 s) rest)).map
            (Declaration.shift s.length) := by
  have hbehind : (rules.flatMap fun rule => rule.occurrences (s ++ rest)).filter
        (fun d => decide (s.length ≤ d.column)) =
      (rules.flatMap fun rule => rule.occurrencesFrom 0 false (rule.overrun rest false 0 s)
        rest).map (Declaration.shift s.length) := by
    rw [List.filter_flatMap, List.map_flatMap]
    apply List.flatMap_congr
    intro rule _
    obtain ⟨found, hfound, heq⟩ := exists_occurrences_append rule hs rest
    rw [heq, List.filter_append, List.filter_eq_nil_iff.mpr (by simpa using hfound),
      List.filter_eq_self.mpr (by simp), List.nil_append]
  have hbefore : ∀ l : List Declaration,
      ((l.filter fun d => !covers (some (column, s.length)) d.column).filter
        fun d => decide (d.column < s.length)) = l.filter fun d => d.column < column := by
    intro l
    rw [List.filter_filter]
    apply List.filter_congr
    intro d _
    simp only [covers, ← decide_not, ← Bool.decide_and, decide_eq_decide]
    omega
  have hafter : ∀ l : List Declaration,
      ((l.filter fun d => !covers (some (column, s.length)) d.column).filter
        fun d => !decide (d.column < s.length)) = l.filter fun d => s.length ≤ d.column := by
    intro l
    rw [List.filter_filter]
    apply List.filter_congr
    intro d _
    simp only [covers, ← decide_not, ← Bool.decide_and, decide_eq_decide]
    omega
  rw [candidates, flatMap_occurrences_ofBracket,
    sortBy_eq_append (p := fun d => decide (d.column < s.length)), hbefore, hafter, hbehind,
    sortBy_map]
  · rfl
  · intro d e
    simp
  · intro d _ e _ hd he
    simp only [decide_eq_true_eq, decide_eq_false_iff_not] at hd he ⊢
    omega

/-- What starts before a column is kept as if the rest of the line were excluded. -/
theorem keepApart_candidatesBefore_eq_declarations (rules : List BracketRule) (column : Nat)
    (line : List Char) : keepApart 0 (candidatesBefore rules column line) =
      declarations (rules.map .ofBracket) (some (column, line.length)) line := by
  rw [declarations, candidates, flatMap_occurrences_ofBracket, candidatesBefore]
  refine congrArg _ (congrArg _ (List.filter_congr fun d hd => ?_))
  obtain ⟨rule, -, hd⟩ := List.mem_flatMap.mp hd
  have := (BracketRule.declares_of_mem_occurrences hd).column_lt
  simp only [covers, ← decide_not, ← Bool.decide_and, decide_eq_decide]
  omega

theorem declarations_append (rules : List BracketRule) {column : Nat} {s : List Char}
    (hcolumn : column ≤ s.length) (hs : BracketRule.insideAfter false s = false) {rest : List Char}
    (hbefore : ∀ d ∈ keepApart 0 (candidatesBefore rules column (s ++ rest)), d.stop ≤ s.length) :
    declarations (rules.map .ofBracket) (some (column, s.length)) (s ++ rest) =
      keepApart 0 (candidatesBefore rules column (s ++ rest)) ++
        (declarationsAfter rules (fun rule => rule.overrun rest false 0 s) rest).map
          (Declaration.shift s.length) := by
  rw [declarations, candidates_append rules hcolumn hs,
    keepApart_append_map_shift hbefore (Nat.zero_le _)]
  rfl

/-! ### The source -/

/-- The declaration that a shape right behind the source makes. -/
def sourceDeclaration? (source : List Char) (suffix : Option (BracketRule × List Char)) :
    Option Declaration :=
  suffix.map fun shape => ⟨0, shape.1.span source shape.2, String.ofList source,
    cleanLabel shape.2, shape.1.shape⟩

/-- A text between a source and a label: no identifier, opening or closing is in it. -/
structure Between (s : List Char) : Prop where
  ne_nil : s ≠ []
  id : ∀ c ∈ s, isIdChar c = false
  opener : ∀ c ∈ s, isOpener c = false
  closer : ∀ c ∈ s, isCloser c = false

theorem between_of_isGap {gap : List Char} (hne : gap ≠ []) (h : IsGap gap) : Between gap where
  ne_nil := hne
  id c hc := isIdChar_of_isBlank (h c hc)
  opener c hc := by
    by_contra hopener
    have hblank := h c hc
    rw [isBlank_of_isOpener (by simpa using hopener)] at hblank
    cases hblank
  closer c hc := isCloser_of_isBlank (h c hc)

section
variable {source gap rest : List Char} {suffix : Option (BracketRule × List Char)} {d : Declaration}

theorem stops_of_forall_mem_eq_false {p : Char → Bool} {s : List Char} (hne : s ≠ [])
    (h : ∀ c ∈ s, p c = false) (rest : List Char) : Stops p (s ++ rest) := by
  cases s with
  | nil => exact absurd rfl hne
  | cons c s => exact stops_cons.mpr (h c List.mem_cons_self)

/-- No declaration starts between a source and a label. -/
theorem BracketRule.Declares.column_lt_left {rule : BracketRule} {front : List Char}
    (h : rule.Declares (front ++ (gap ++ rest)) d) (hgap : Between gap)
    (hcolumn : d.column < (front ++ gap).length) : d.column < front.length := by
  by_contra hge
  obtain ⟨k, hk⟩ := Nat.exists_eq_add_of_le (Nat.le_of_not_lt hge)
  obtain ⟨id, body, rest', hdrop, hid, -⟩ := h.exists_drop_eq
  rw [List.length_append] at hcolumn
  rw [hk, List.drop_length_add_append, List.drop_append_of_le_length (by omega)] at hdrop
  have hne : gap.drop k ≠ [] := by
    rw [ne_eq, List.drop_eq_nil_iff]
    omega
  have hstops := stops_of_forall_mem_eq_false hne
    (fun c hc => hgap.id c (List.mem_of_mem_drop hc)) rest
  rw [hdrop] at hstops
  exact (hid.starts.append _).not_stops hstops

/-- A source is only declared by a shape right behind it. -/
theorem not_declares_source {rule : BracketRule} (hrule : rule ∈ BracketRule.standard)
    (hsource : IsId source) (hgap : Between gap) (hcolumn : d.column < source.length) :
    ¬ rule.Declares (source ++ (gap ++ rest)) d := by
  intro h
  obtain ⟨id, body, rest', hdrop, hid, hbody⟩ := h.exists_drop_eq
  rw [List.drop_append_of_le_length (Nat.le_of_lt hcolumn)] at hdrop
  have hopener := (starts_suffixText (isSuffix_of_mem_standard hrule hbody)).append rest'
  obtain ⟨-, heq⟩ := run_append_inj (fun c hc => hsource.2 c (List.mem_of_mem_drop hc)) hid.2
    (stops_of_forall_mem_eq_false hgap.ne_nil hgap.id rest)
    (hopener.stops fun _ => isIdChar_of_isOpener) hdrop
  have hstops := stops_of_forall_mem_eq_false hgap.ne_nil hgap.opener rest
  rw [heq] at hstops
  exact hopener.not_stops hstops

theorem candidatesBefore_of_undeclared (hsource : IsId source) (hgap : Between gap)
    (rest : List Char) :
    candidatesBefore BracketRule.standard (source ++ gap).length
      (source ++ (gap ++ rest)) = [] := by
  have hnil : ((BracketRule.standard.flatMap fun rule =>
      rule.occurrences (source ++ (gap ++ rest))).filter
        fun d => d.column < (source ++ gap).length) = [] := by
    rw [List.filter_eq_nil_iff]
    intro d hd
    obtain ⟨rule, hrule, hmem⟩ := List.mem_flatMap.mp hd
    have hdeclares := BracketRule.declares_of_mem_occurrences hmem
    rw [decide_eq_true_eq]
    intro hcolumn
    exact not_declares_source hrule hsource hgap (hdeclares.column_lt_left hgap hcolumn) hdeclares
  rw [candidatesBefore, hnil]
  rfl

/-- All that starts before a label behind a declared source starts inside of its declaration. -/
theorem keepApart_candidatesBefore {rule : BracketRule} {body : List Char}
    (hrule : rule ∈ BracketRule.standard) (hsource : IsId source)
    (hbody : rule.enclosure.stop ∉ body) (hgap : Between gap) (rest : List Char) :
    keepApart 0 (candidatesBefore BracketRule.standard
      (source ++ (rule.enclosure.wrap body ++ gap)).length
      (source ++ (rule.enclosure.wrap body ++ (gap ++ rest)))) =
      [⟨0, rule.span source body, String.ofList source, cleanLabel body, rule.shape⟩] := by
  have hpos := List.length_pos_iff.mpr hsource.1
  have hlength : (source ++ rule.enclosure.wrap body).length = rule.span source body :=
    List.length_append
  rw [keepApart_candidatesBefore_eq_declarations, declarations_eq_singleton
    (firstAt?_zero_eq_some hrule hsource hbody
      (stops_of_forall_mem_eq_false hgap.ne_nil hgap.closer rest) ?_)]
  · rw [BracketRule.declarationAt, Nat.zero_add]
  · intro e he
    obtain ⟨other, -, hdeclares, hcovers⟩ := exists_of_mem_declarations he
    have hcolumn : e.column < (source ++ (rule.enclosure.wrap body ++ gap)).length := by
      have := hdeclares.column_lt
      rw [covers, Bool.and_eq_false_iff, decide_eq_false_iff_not, decide_eq_false_iff_not]
        at hcovers
      omega
    rw [← List.append_assoc] at hdeclares hcolumn
    have hinside := hdeclares.column_lt_left hgap hcolumn
    rwa [hlength, ← Nat.zero_add (rule.span source body)] at hinside
  · simp only [covers, List.length_append, Bool.and_eq_false_iff, decide_eq_false_iff_not]
    omega

end

/-! ### Readings with a label -/

namespace EdgeReading

/-- What stands between a source, perhaps declared, and a label. -/
def gap (r : EdgeReading) : List Char := r.gapSource ++ (r.gapSuffix ++ (r.glyph ++ r.gapGlyph))

/-- A shape after the source stands right behind it. -/
def Attached (r : EdgeReading) : Prop := r.suffix = none ∨ r.gapSource = []

variable {rules : List ConnectorRule} {r : EdgeReading}

theorem Attached.lead_eq (h : r.Attached) :
    r.lead = r.source ++ (Grammar.suffixText r.suffix ++ r.gap) := by
  unfold lead gap
  rw [suffixText_eq]
  rcases h with h | h <;> simp [h, Grammar.suffixText]

theorem Fits.between_gap (hc : Clear rules) (h : r.Fits rules) : Between r.gap := by
  have hchars : ∀ c ∈ r.gap, Text.isBlank c = true ∨ isGlyphChar c = true := by
    intro c hmem
    simp only [gap, List.mem_append] at hmem
    rcases hmem with hmem | hmem | hmem | hmem
    · exact .inl (h.gapSource c hmem)
    · exact .inl (h.gapSuffix c hmem)
    · exact .inr (h.forall_mem_glyph hc c hmem)
    · exact .inl (h.gapGlyph c hmem)
  refine ⟨?_, fun c hmem => ?_, fun c hmem => ?_, fun c hmem => ?_⟩
  · obtain ⟨c, rest, hglyph, -⟩ := h.starts_glyph hc
    simp [gap, hglyph]
  · rcases hchars c hmem with hblank | hglyph
    · exact isIdChar_of_isBlank hblank
    · exact (isGlyphChar_iff.mp hglyph).1
  · rcases hchars c hmem with hblank | hglyph
    · by_contra hopener
      rw [isBlank_of_isOpener (by simpa using hopener)] at hblank
      cases hblank
    · exact (isGlyphChar_iff.mp hglyph).2.2.1
  · rcases hchars c hmem with hblank | hglyph
    · exact isCloser_of_isBlank hblank
    · exact (isGlyphChar_iff.mp hglyph).2.2.2

/-- The text up to the end of a label. -/
def labelled (r : EdgeReading) (label : List Char) : List Char := r.lead ++ bars.wrap label

/-- The text of a line behind the label of its edge. -/
def behind (r : EdgeReading) (tail : List Char) : List Char := r.gapLabel ++ (r.target ++ tail)

/-- How much of the text behind a label each rule has covered already. -/
def covered (r : EdgeReading) (label tail : List Char) (rule : BracketRule) : Nat :=
  rule.overrun (r.behind tail) false 0 (r.labelled label)

theorem text_append_eq_labelled {label : List Char} (hlabel : r.label = some label)
    (tail : List Char) : r.text ++ tail = r.labelled label ++ r.behind tail := by
  simp [text, labelled, behind, labelText, hlabel]

theorem declarations_labelled (hc : Clear rules) (h : r.Fits rules) (ha : r.Attached)
    {label : List Char} (hlabel : r.label = some label) (tail : List Char) :
    declarations ShapeRule.standard r.labelSpan (r.text ++ tail) =
      (sourceDeclaration? r.source r.suffix).toList ++
        (declarationsAfter BracketRule.standard (r.covered label tail) (r.behind tail)).map
          (Declaration.shift (r.labelled label).length) := by
  have hgap := h.between_gap hc
  have hspan : r.labelSpan = some (r.lead.length, (r.labelled label).length) := by
    simp [labelSpan, labelled, labelText, hlabel]
  have hbefore : keepApart 0 (candidatesBefore BracketRule.standard r.lead.length
      (r.labelled label ++ r.behind tail)) = (sourceDeclaration? r.source r.suffix).toList := by
    rw [labelled, ha.lead_eq, List.append_assoc, List.append_assoc, List.append_assoc]
    cases hsuffix : r.suffix with
    | none =>
        exact congrArg (keepApart 0) (candidatesBefore_of_undeclared h.source hgap _)
    | some shape =>
        obtain ⟨hrule, hbody⟩ := h.suffix shape hsuffix
        exact keepApart_candidatesBefore (mem_suffixRules_iff.mp hrule) h.source hbody hgap _
  rw [hspan, text_append_eq_labelled hlabel, declarations_append, hbefore]
  · rfl
  · simp [labelled]
  · have hlast : (r.labelled label).getLast? = some '|' := by
      rw [labelled, Enclosure.wrap, ← List.append_assoc]
      exact List.getLast?_concat
    rw [BracketRule.insideAfter, hlast]
    rfl
  · rw [hbefore]
    intro d hd
    obtain ⟨⟨rule, body⟩, hsuffix, rfl⟩ := Option.map_eq_some_iff.mp (Option.mem_toList.mp hd)
    simp only [labelled, ha.lead_eq, hsuffix, Grammar.suffixText, BracketRule.span,
      List.length_append]
    omega

end EdgeReading

/-! ### What a line with a labelled edge says -/

/-- A mention further right. -/
def Mention.shift (n : Nat) (m : Mention) : Mention := { m with column := m.column + n }

/-- The mention of the source, by the shape behind it if there is one. -/
def EdgeReading.firstMention (r : EdgeReading) : Mention :=
  ⟨0, String.ofList r.source, r.suffix.map fun shape => (cleanLabel shape.2, shape.1.shape)⟩

/-- The mentions behind the label of an edge: what is declared there, and the target unless it is
declared too. -/
def EdgeReading.laterMentions (r : EdgeReading) (declared : List Declaration) : List Mention :=
  sortBy (fun m n => m.column ≤ n.column) (declared.map Declaration.mention ++
    [⟨r.gapLabel.length, String.ofList r.target, none⟩].filter fun m : Mention =>
      declared.all fun d => d.column != m.column)

namespace Statement

variable {rules : Rules} {r : EdgeReading}

theorem map_mention_shift (n : Nat) (declared : List Declaration) :
    (declared.map (Declaration.shift n)).map Declaration.mention =
      (declared.map Declaration.mention).map (Mention.shift n) := by
  rw [List.map_map, List.map_map]
  rfl

/-- The source comes first, by its declaration if it has one, and the rest is sorted on its own. -/
theorem sortBy_mentions {n : Nat} (hn : 0 < n) (htarget : r.targetColumn = r.gapLabel.length + n)
    (later : List Declaration) {declared : List Declaration}
    (hdeclared : declared =
      (sourceDeclaration? r.source r.suffix).toList ++ later.map (Declaration.shift n)) :
    sortBy (fun m n => m.column ≤ n.column) (declared.map Declaration.mention ++
      (endpoints r).filter fun m => declared.all fun d => d.column != m.column) =
      r.firstMention :: (r.laterMentions later).map (Mention.shift n) := by
  let target : Mention := ⟨r.gapLabel.length, String.ofList r.target, none⟩
  let others : List Mention := later.map Declaration.mention ++
    [target].filter fun m => later.all fun d => d.column != m.column
  have hends : endpoints r = [⟨0, String.ofList r.source, none⟩, target.shift n] := by
    rw [endpoints, htarget]
    rfl
  have hfilter : ([target.shift n].filter fun m => (later.map (Declaration.shift n)).all
      fun d => d.column != m.column) =
      ([target].filter fun m => later.all fun d => d.column != m.column).map (Mention.shift n) := by
    rw [← List.map_singleton, List.filter_map]
    congr 2
    funext m
    rw [Function.comp_apply, List.all_map]
    congr 1
    funext d
    simp [Mention.shift, bne]
  have hsorted : ∀ l l' : List Mention, l ++ l' = others.map (Mention.shift n) →
      sortBy (fun m n => decide (m.column ≤ n.column)) (l ++ r.firstMention :: l') =
        r.firstMention :: (r.laterMentions later).map (Mention.shift n) := by
    intro l l' hothers
    rw [sortBy_append_cons, hothers, sortBy_map]
    · rfl
    · intro m m'
      simp [Mention.shift]
    · intro m hm
      have hmem : m ∈ others.map (Mention.shift n) := hothers ▸ List.mem_append_left l' hm
      obtain ⟨m', -, rfl⟩ := List.mem_map.mp hmem
      show decide (m'.column + n ≤ 0) = false
      rw [decide_eq_false_iff_not]
      omega
    · intro m _
      exact decide_eq_true (Nat.zero_le m.column)
  subst hdeclared
  rw [hends]
  cases hsuffix : r.suffix with
  | none =>
      have hfirst : r.firstMention = ⟨0, String.ofList r.source, none⟩ := by
        rw [EdgeReading.firstMention, hsuffix]
        rfl
      have hfree : ((later.map (Declaration.shift n)).all fun d => d.column != 0) = true := by
        rw [List.all_map, List.all_eq_true]
        intro d _
        simp only [Function.comp_apply, Declaration.column_shift, bne_iff_ne]
        omega
      rw [sourceDeclaration?, Option.map_none, Option.toList_none, List.nil_append,
        List.filter_cons, if_pos hfree, hfilter, ← hfirst]
      apply hsorted
      rw [map_mention_shift, ← List.map_append]
  | some shape =>
      let first : Declaration := ⟨0, shape.1.span r.source shape.2, String.ofList r.source,
        cleanLabel shape.2, shape.1.shape⟩
      have hfirst : r.firstMention = first.mention := by
        rw [EdgeReading.firstMention, hsuffix]
        rfl
      have hskip : ([⟨0, String.ofList r.source, none⟩, target.shift n].filter fun m : Mention =>
          (first :: later.map (Declaration.shift n)).all fun d => d.column != m.column) =
          [target.shift n].filter fun m => (later.map (Declaration.shift n)).all
            fun d => d.column != m.column := by
        have hne : ∀ k, (0 != k + n) = true := fun k => by simp; omega
        simp [first, target, Mention.shift, List.filter_cons, hne]
      have hall : (sourceDeclaration? r.source (some shape)).toList ++
          later.map (Declaration.shift n) = first :: later.map (Declaration.shift n) := rfl
      rw [hall, hskip, hfilter, List.map_cons, List.cons_append, ← hfirst]
      apply hsorted []
      rw [map_mention_shift, List.nil_append, ← List.map_append]

/-- What a line says behind a label depends on the label only by what it covers. -/
theorem ofContent_labelled (hc : Clear rules.connectors) (hs : rules.shapes = ShapeRule.standard)
    (h : r.Fits rules.connectors) (ha : r.Attached) {label : List Char}
    (hlabel : r.label = some label) {tail : List Char} (htail : Stops isIdChar tail) :
    ofContent rules (r.text ++ tail) =
      ⟨r.firstMention :: (r.laterMentions (declarationsAfter BracketRule.standard
          (r.covered label tail) (r.behind tail))).map (Mention.shift (r.labelled label).length),
        some (r.edge rules.connectors)⟩ := by
  obtain ⟨found, hfound, hagrees, htarget⟩ := h.exists_readEdge?_eq hc htail
  have hdeclared := r.declarations_labelled hc h ha hlabel tail
  rw [hagrees.labelSpan] at hdeclared
  have hends : endpoints found = endpoints r := by
    rw [endpoints, endpoints, hagrees.source, hagrees.targetColumn, htarget]
  have hedge : found.edge rules.connectors = r.edge rules.connectors :=
    (hagrees.edge_eq htarget (congrArg _ hagrees.glyph)).symm
  have hpos : 0 < (r.labelled label).length := by
    simp only [EdgeReading.labelled, Enclosure.wrap, bars, List.length_append,
      List.length_singleton]
    omega
  have hcolumn : r.targetColumn = r.gapLabel.length + (r.labelled label).length := by
    simp only [EdgeReading.targetColumn, EdgeReading.labelled, EdgeReading.labelText, hlabel,
      List.length_append]
    omega
  have hmentions := sortBy_mentions hpos hcolumn _ hdeclared
  rw [← hends] at hmentions
  rw [ofContent, hfound, hs, ← hedge, Statement.mk.injEq]
  exact ⟨hmentions, rfl⟩

end Statement

end Flowchart.Grammar
