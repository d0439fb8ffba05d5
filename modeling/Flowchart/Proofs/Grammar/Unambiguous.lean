import Mathlib.Data.List.Nodup
import Flowchart.Diagram.Registry
import Flowchart.Proofs.Grammar.EdgeLine

/-! # Edge lines are unambiguous

A table of rules is clear (`Clear`) when its glyphs are distinct, not empty and free of the
characters that the other pieces of an edge line use.  Then all readings of a line agree
(`EdgeReading.Fits.agrees`): every piece is the longest run of its characters or goes up to the
first closing, and no piece starts with a character of the piece before it; only the blanks around
a missing piece may be shared out in several ways.  So the edge of a line is settled by the grammar
alone, and the order of the rules is not seen (`Registry.edges_add_of_clear`). -/

namespace Flowchart.Grammar

variable {rules : List ConnectorRule} {line tail tail' : List Char} {r r' : EdgeReading}

/-! ### Pieces and what follows them -/

/-- Double parentheses are not single ones, unless another one follows. -/
theorem ellipse_wrap_append_ne {body body' rest rest' : List Char} (hbody : ')' ∉ body)
    (hbody' : ')' ∉ body') (hrest' : Stops isCloser rest') :
    BracketRule.ellipse.enclosure.wrap body ++ rest ≠
      BracketRule.rounded.enclosure.wrap body' ++ rest' := by
  intro h
  have h' : ('(' :: body) ++ (')' :: ')' :: rest) = body' ++ (')' :: rest') := by
    simpa [BracketRule.ellipse, BracketRule.rounded, Enclosure.wrap] using h
  have hrun : ∀ c ∈ '(' :: body, (c != ')') = true := by
    intro c hc
    rw [bne_iff_ne]
    exact ne_of_mem_of_not_mem hc (by simpa using hbody)
  have hrun' : ∀ c ∈ body', (c != ')') = true := by
    intro c hc
    rw [bne_iff_ne]
    exact ne_of_mem_of_not_mem hc hbody'
  obtain ⟨-, hclose⟩ := run_append_inj hrun hrun' (by simp) (by simp) h'
  obtain rfl : ')' :: rest = rest' := (List.cons.inj hclose).2
  exact absurd (stops_cons.mp hrest') (by decide)

theorem opening_ne_nil {rule : BracketRule} (h : rule ∈ suffixRules) :
    rule.enclosure.opening ≠ [] := by
  simp only [suffixRules, List.mem_cons, List.not_mem_nil, or_false] at h
  rcases h with rfl | rfl | rfl | rfl <;> decide

theorem head?_wrap_append {e : Enclosure} (h : e.opening ≠ []) (body rest : List Char) :
    (e.wrap body ++ rest).head? = e.opening.head? := by
  rw [Enclosure.wrap, List.append_assoc, List.append_assoc, List.head?_append_of_ne_nil _ h]

/-- The first character of an opening tells the rule, apart from parentheses. -/
theorem eq_or_parentheses_of_head? {rule rule' : BracketRule} (h : rule ∈ suffixRules)
    (h' : rule' ∈ suffixRules)
    (hhead : rule.enclosure.opening.head? = rule'.enclosure.opening.head?) :
    rule = rule' ∨ (rule = .ellipse ∧ rule' = .rounded) ∨ (rule = .rounded ∧ rule' = .ellipse) := by
  simp only [suffixRules, List.mem_cons, List.not_mem_nil, or_false] at h h'
  rcases h with rfl | rfl | rfl | rfl <;> rcases h' with rfl | rfl | rfl | rfl <;>
    simp [BracketRule.ellipse, BracketRule.rectangle, BracketRule.diamond,
      BracketRule.rounded] at hhead ⊢

/-- A shape is determined by its text if no closer follows. -/
theorem suffixText_append_inj {shape shape' : BracketRule × List Char} {rest rest' : List Char}
    (h : IsSuffix (some shape)) (h' : IsSuffix (some shape')) (hrest : Stops isCloser rest)
    (hrest' : Stops isCloser rest')
    (heq : suffixText (some shape) ++ rest = suffixText (some shape') ++ rest') :
    shape = shape' ∧ rest = rest' := by
  obtain ⟨rule, body⟩ := shape
  obtain ⟨rule', body'⟩ := shape'
  obtain ⟨hrule, hbody⟩ := h _ rfl
  obtain ⟨hrule', hbody'⟩ := h' _ rfl
  simp only [suffixText] at heq hbody hbody'
  have hhead : rule.enclosure.opening.head? = rule'.enclosure.opening.head? := by
    rw [← head?_wrap_append (opening_ne_nil hrule) body rest, heq,
      head?_wrap_append (opening_ne_nil hrule')]
  rcases eq_or_parentheses_of_head? hrule hrule' hhead with rfl | ⟨rfl, rfl⟩ | ⟨rfl, rfl⟩
  · obtain ⟨rfl, hr⟩ := Enclosure.wrap_append_inj hbody hbody' heq
    exact ⟨rfl, hr⟩
  · exact absurd heq (ellipse_wrap_append_ne hbody hbody' hrest')
  · exact absurd heq.symm (ellipse_wrap_append_ne hbody' hbody hrest)

theorem starts_suffixText {shape : BracketRule × List Char} (h : IsSuffix (some shape)) :
    Starts isOpener (suffixText (some shape)) := by
  obtain ⟨rule, body⟩ := shape
  obtain ⟨hrule, -⟩ := h _ rfl
  simp only [suffixRules, List.mem_cons, List.not_mem_nil, or_false] at hrule
  rcases hrule with rfl | rfl | rfl | rfl <;> exact ⟨_, _, rfl, by decide⟩

theorem labelText_append_inj {body body' rest rest' : List Char} (h : '|' ∉ body) (h' : '|' ∉ body')
    (heq : labelText (some body) ++ rest = labelText (some body') ++ rest') :
    body = body' ∧ rest = rest' :=
  Enclosure.wrap_append_inj (e := bars) h h' heq

theorem starts_labelText (body : List Char) : Starts isOpener (labelText (some body)) :=
  ⟨_, _, rfl, by decide⟩

section
variable {α : Type} {q : Char → Bool}

/-- An optional piece between blanks is determined by what it is and what follows, if the piece
starts with an opener and what follows starts with neither an opener nor a blank. -/
theorem padded_append_inj (text : Option α → List Char) {piece piece' : Option α}
    {g₁ g₂ g₁' g₂' rest rest' : List Char}
    (hnone : text none = []) (hopen : ∀ a ∈ piece, Starts isOpener (text (some a)))
    (hopen' : ∀ a ∈ piece', Starts isOpener (text (some a)))
    (hq : ∀ c, q c = true → isOpener c = false) (hqb : ∀ c, q c = true → Text.isBlank c = false)
    (hrest : Starts q rest) (hrest' : Starts q rest') (hg₁ : IsGap g₁) (hg₂ : IsGap g₂)
    (hg₁' : IsGap g₁') (hg₂' : IsGap g₂')
    (hinj : ∀ a ∈ piece, ∀ a' ∈ piece',
      text (some a) ++ (g₂ ++ rest) = text (some a') ++ (g₂' ++ rest') →
        a = a' ∧ g₂ ++ rest = g₂' ++ rest')
    (h : g₁ ++ (text piece ++ (g₂ ++ rest)) = g₁' ++ (text piece' ++ (g₂' ++ rest'))) :
    piece = piece' ∧ rest = rest' ∧ (piece ≠ none → g₁ = g₁') := by
  have hgaps : ∀ {g g' : List Char}, IsGap g → IsGap g' → IsGap (g ++ g') := fun hg hg' c hc =>
    (List.mem_append.mp hc).elim (hg c) (hg' c)
  have hblank := hrest.stops hqb
  have hblank' := hrest'.stops hqb
  cases piece with
  | none =>
      cases piece' with
      | none =>
          rw [hnone, List.nil_append, List.nil_append, ← List.append_assoc,
            ← List.append_assoc] at h
          obtain ⟨-, hr⟩ := run_append_inj (hgaps hg₁ hg₂) (hgaps hg₁' hg₂') hblank hblank' h
          exact ⟨rfl, hr, fun hne => absurd rfl hne⟩
      | some a' =>
          have ho := (hopen' a' rfl).append (g₂' ++ rest')
          rw [hnone, List.nil_append, ← List.append_assoc] at h
          obtain ⟨-, hr⟩ := run_append_inj (hgaps hg₁ hg₂) hg₁' hblank
            (ho.stops fun _ => isBlank_of_isOpener) h
          rw [← hr] at ho
          exact absurd (hrest.stops hq) ho.not_stops
  | some a =>
      have ho := (hopen a rfl).append (g₂ ++ rest)
      have hob := ho.stops fun _ => isBlank_of_isOpener
      cases piece' with
      | none =>
          rw [hnone, List.nil_append, ← List.append_assoc g₁'] at h
          obtain ⟨-, hr⟩ := run_append_inj hg₁ (hgaps hg₁' hg₂') hob hblank' h
          rw [hr] at ho
          exact absurd (hrest'.stops hq) ho.not_stops
      | some a' =>
          have ho' := (hopen' a' rfl).append (g₂' ++ rest')
          obtain ⟨hg, ht⟩ := run_append_inj hg₁ hg₁' hob
            (ho'.stops fun _ => isBlank_of_isOpener) h
          obtain ⟨rfl, hr⟩ := hinj a rfl a' rfl ht
          obtain ⟨-, hr⟩ := run_append_inj hg₂ hg₂' hblank hblank' hr
          exact ⟨rfl, hr, fun _ => hg⟩

end

/-! ### Agreement of readings -/

/-- Tables whose glyphs are distinct, not empty and made of glyph characters. -/
structure Clear (rules : List ConnectorRule) : Prop where
  nodup : (rules.map ConnectorRule.glyph).Nodup
  ne_nil : ∀ rule ∈ rules, rule.glyph ≠ []
  glyphChar : ∀ rule ∈ rules, ∀ c ∈ rule.glyph, isGlyphChar c = true

theorem Clear.perm {rules' : List ConnectorRule} (hc : Clear rules) (h : rules'.Perm rules) :
    Clear rules' where
  nodup := (h.map ConnectorRule.glyph).nodup_iff.mpr hc.nodup
  ne_nil rule hrule := hc.ne_nil rule (h.mem_iff.mp hrule)
  glyphChar rule hrule := hc.glyphChar rule (h.mem_iff.mp hrule)

theorem clear_standard : Clear ConnectorRule.standard where
  nodup := by decide
  ne_nil := by decide
  glyphChar := by
    have h : (ConnectorRule.standard.all fun rule => rule.glyph.all isGlyphChar) = true := by decide
    simpa only [List.all_eq_true] using h

namespace EdgeReading

theorem Fits.mono {rules' : List ConnectorRule} (h : r.Fits rules) (hsub : rules ⊆ rules') :
    r.Fits rules' :=
  { h with glyph := List.map_subset _ hsub h.glyph }

theorem Fits.starts_glyph (h : r.Fits rules) (hc : Clear rules) : Starts isGlyphChar r.glyph := by
  obtain ⟨rule, hrule, hglyph⟩ := List.mem_map.mp h.glyph
  rw [← hglyph]
  exact starts_of_forall_mem (hc.ne_nil rule hrule) (hc.glyphChar rule hrule)

theorem Fits.forall_mem_glyph (h : r.Fits rules) (hc : Clear rules) :
    ∀ c ∈ r.glyph, isGlyphChar c = true := by
  obtain ⟨rule, hrule, hglyph⟩ := List.mem_map.mp h.glyph
  rw [← hglyph]
  exact hc.glyphChar rule hrule

/-- The text between the source and the glyph. -/
def shapePart (r : EdgeReading) (rest : List Char) : List Char :=
  r.gapSource ++ (Grammar.suffixText r.suffix ++ (r.gapSuffix ++ rest))

/-- The text between the glyph and the target. -/
def labelPart (r : EdgeReading) (rest : List Char) : List Char :=
  r.gapGlyph ++ (Grammar.labelText r.label ++ (r.gapLabel ++ rest))

theorem text_append_eq_parts (r : EdgeReading) (tail : List Char) :
    r.text ++ tail =
      r.source ++ r.shapePart (r.glyph ++ r.labelPart (r.target ++ tail)) := text_append r tail

/-- The source is followed by a blank, an opener or the glyph. -/
theorem Fits.stops_shapePart (h : r.Fits rules) {rest : List Char} (hrest : Stops isIdChar rest) :
    Stops isIdChar (r.shapePart rest) := by
  have hgap : ∀ g, IsGap g → Stops isIdChar g := fun g hg =>
    .of_forall_mem (fun _ => isIdChar_of_isBlank) hg
  refine (hgap _ h.gapSource).append (Stops.append ?_ ((hgap _ h.gapSuffix).append hrest))
  cases hsuffix : r.suffix with
  | none => exact stops_nil _
  | some shape =>
      exact (starts_suffixText (hsuffix ▸ h.suffix)).stops fun _ => isIdChar_of_isOpener

/-- The glyph is followed by a blank, a bar or the target. -/
theorem Fits.stops_labelPart (h : r.Fits rules) (tail : List Char) :
    Stops isGlyphChar (r.labelPart (r.target ++ tail)) := by
  have hgap : ∀ g, IsGap g → Stops isGlyphChar g := fun g hg =>
    .of_forall_mem (fun _ => isGlyphChar_of_isBlank) hg
  have htarget := (h.target.starts.append tail).stops fun _ => isGlyphChar_of_isIdChar
  refine (hgap _ h.gapGlyph).append (Stops.append ?_ ((hgap _ h.gapLabel).append htarget))
  cases r.label with
  | none => exact stops_nil _
  | some body => exact (starts_labelText body).stops fun _ => isGlyphChar_of_isOpener

theorem Fits.shapePart_inj (h : r.Fits rules) (h' : r'.Fits rules) {rest rest' : List Char}
    (hrest : Starts isGlyphChar rest) (hrest' : Starts isGlyphChar rest')
    (heq : r.shapePart rest = r'.shapePart rest') : rest = rest' := by
  have hcloser : ∀ {g rest : List Char}, IsGap g → Starts isGlyphChar rest →
      Stops isCloser (g ++ rest) := fun hg hrest =>
    (Stops.of_forall_mem (fun _ => isCloser_of_isBlank) hg).append
      (hrest.stops fun _ hc => (isGlyphChar_iff.mp hc).2.2.2)
  refine (padded_append_inj Grammar.suffixText rfl ?_ ?_
    (fun _ hc => (isGlyphChar_iff.mp hc).2.2.1) (fun _ hc => (isGlyphChar_iff.mp hc).2.1) hrest
    hrest' h.gapSource h.gapSuffix h'.gapSource h'.gapSuffix ?_ heq).2.1
  · intro shape hshape
    exact starts_suffixText (hshape ▸ h.suffix)
  · intro shape hshape
    exact starts_suffixText (hshape ▸ h'.suffix)
  · intro shape hshape shape' hshape'
    exact suffixText_append_inj (hshape ▸ h.suffix) (hshape' ▸ h'.suffix)
      (hcloser h.gapSuffix hrest) (hcloser h'.gapSuffix hrest')

theorem Fits.labelPart_inj (h : r.Fits rules) (h' : r'.Fits rules) {rest rest' : List Char}
    (hrest : Starts isIdChar rest) (hrest' : Starts isIdChar rest')
    (heq : r.labelPart rest = r'.labelPart rest') :
    r.label = r'.label ∧ rest = rest' ∧ (r.label ≠ none → r.gapGlyph = r'.gapGlyph) := by
  refine padded_append_inj Grammar.labelText rfl ?_ ?_ (fun _ => isOpener_of_isIdChar)
    (fun _ => isBlank_of_isIdChar) hrest hrest' h.gapGlyph h.gapLabel h'.gapGlyph h'.gapLabel ?_ heq
  · exact fun body _ => starts_labelText body
  · exact fun body _ => starts_labelText body
  · intro body hbody body' hbody'
    exact labelText_append_inj (h.label body hbody) (h'.label body' hbody')

/-- Readings that say the same of a line, whatever blanks they give to which gap. -/
structure Agrees (r r' : EdgeReading) : Prop where
  source : r.source = r'.source
  glyph : r.glyph = r'.glyph
  label : r.label = r'.label
  labelSpan : r.labelSpan = r'.labelSpan
  targetColumn : r.targetColumn = r'.targetColumn

theorem length_text_append_eq_lead (r : EdgeReading) (tail : List Char) :
    (r.text ++ tail).length + r.gapGlyph.length =
      r.lead.length + (r.labelPart (r.target ++ tail)).length := by
  simp only [text, lead, labelPart, labelText_eq, List.length_append]
  omega

/-- With clear rules, all readings of a line agree. -/
theorem Fits.agrees (hc : Clear rules) (h : r.Fits rules) (h' : r'.Fits rules)
    (heq : r.text ++ tail = r'.text ++ tail') :
    r.Agrees r' ∧ r.target ++ tail = r'.target ++ tail' := by
  have hlength := congrArg List.length heq
  rw [text_append_eq_parts, text_append_eq_parts] at heq
  have hglyph := (h.starts_glyph hc).append (r.labelPart (r.target ++ tail))
  have hglyph' := (h'.starts_glyph hc).append (r'.labelPart (r'.target ++ tail'))
  have hgid : ∀ c, isGlyphChar c = true → isIdChar c = false :=
    fun c hg => (isGlyphChar_iff.mp hg).1
  obtain ⟨esource, eshape⟩ := run_append_inj h.source.2 h'.source.2
    (h.stops_shapePart (hglyph.stops hgid)) (h'.stops_shapePart (hglyph'.stops hgid)) heq
  have erest := h.shapePart_inj h' hglyph hglyph' eshape
  obtain ⟨eglyph, epart⟩ := run_append_inj (h.forall_mem_glyph hc) (h'.forall_mem_glyph hc)
    (h.stops_labelPart tail) (h'.stops_labelPart tail') erest
  obtain ⟨elabel, etarget, egap⟩ := h.labelPart_inj h' (h.target.starts.append tail)
    (h'.target.starts.append tail') epart
  have ecolumn : r.targetColumn = r'.targetColumn := by
    have hl := r.length_text_append tail
    have hl' := r'.length_text_append tail'
    rw [etarget] at hl
    omega
  have espan : r.labelSpan = r'.labelSpan := by
    have hl := r.length_text_append_eq_lead tail
    have hl' := r'.length_text_append_eq_lead tail'
    rw [epart] at hl
    simp only [labelSpan, labelText_eq, ← elabel]
    cases hlabel : r.label with
    | none => rfl
    | some body =>
        have hgap := congrArg List.length (egap (by simp [hlabel]))
        have hlead : r.lead.length = r'.lead.length := by omega
        simp [hlead]
  exact ⟨⟨esource, eglyph, elabel, espan, ecolumn⟩, etarget⟩

end EdgeReading

/-! ### The edge of a line -/

theorem connectorOf_glyph (h : (rules.map ConnectorRule.glyph).Nodup) {rule : ConnectorRule}
    (hrule : rule ∈ rules) : ConnectorRule.connectorOf rules rule.glyph = rule.connector := by
  unfold ConnectorRule.connectorOf
  split
  · next found hfound =>
      have hglyph : found.glyph = rule.glyph := by simpa using List.find?_some hfound
      have hmem : found ∈ rules := List.mem_reverse.mp (List.mem_of_find?_eq_some hfound)
      rw [List.inj_on_of_nodup_map h hmem hrule hglyph]
  · next hnone =>
      have := List.find?_eq_none.mp hnone rule (List.mem_reverse.mpr hrule)
      simp at this

namespace EdgeReading

/-- The pieces fit the grammar and stand at the start of a line. -/
def Reads (rules : List ConnectorRule) (line : List Char) (r : EdgeReading) : Prop :=
  r.Fits rules ∧ r.text <+: line

/-- What a reading of a line says: the target goes on to the end of its identifier, and a label that
is empty once cleaned counts as none. -/
structure Means (rules : List ConnectorRule) (line : List Char) (r : EdgeReading) (e : Edge) :
    Prop where
  source : e.source = String.ofList r.source
  target : e.target = String.ofList ((line.drop r.targetColumn).takeWhile isIdChar)
  label : e.label = match r.label with
    | none => none
    | some body => if cleanLabel body = "" then none else some (cleanLabel body)
  connector : ⟨r.glyph, e.connector⟩ ∈ rules

theorem Reads.agrees (hc : Clear rules) (h : r.Reads rules line) (h' : r'.Reads rules line) :
    r.Agrees r' := by
  obtain ⟨hfits, tail, rfl⟩ := h
  obtain ⟨hfits', tail', htail'⟩ := h'
  exact (hfits.agrees hc hfits' htail'.symm).1

theorem Means.congr {e : Edge} (h : r.Means rules line e) (ha : r.Agrees r') :
    r'.Means rules line e where
  source := ha.source ▸ h.source
  target := ha.targetColumn ▸ h.target
  label := ha.label ▸ h.label
  connector := ha.glyph ▸ h.connector

theorem Means.unique (hc : Clear rules) {e e' : Edge} (h : r.Means rules line e)
    (h' : r.Means rules line e') : e = e' := by
  have hconnector : e.connector = e'.connector :=
    (connectorOf_glyph hc.nodup h.connector).symm.trans (connectorOf_glyph hc.nodup h'.connector)
  cases e
  cases e'
  simp only [Edge.mk.injEq]
  exact ⟨h.source.trans h'.source.symm, h.target.trans h'.target.symm,
    h.label.trans h'.label.symm, hconnector⟩

theorem drop_targetColumn (r : EdgeReading) (tail : List Char) :
    (r.text ++ tail).drop r.targetColumn = r.target ++ tail := by
  have htext : r.text ++ tail =
      (r.lead ++ r.labelText ++ r.gapLabel) ++ (r.target ++ tail) := by simp [text]
  rw [htext]
  exact List.drop_left' (by simp [targetColumn]; omega)

/-- The edge that the reader gives is what its reading says. -/
theorem means_edge (hc : Clear rules) (h : readEdge? rules line = some r) :
    r.Reads rules line ∧ r.Means rules line (r.edge rules) := by
  obtain ⟨hfits, tail, rfl, htail⟩ := exists_of_readEdge? h
  refine ⟨⟨hfits, tail, rfl⟩, rfl, ?_, ?_, ?_⟩
  · rw [drop_targetColumn, takeWhile_run_append hfits.target.2 htail]
    rfl
  · cases hlabel : r.label with
    | none => simp [edge, hlabel]
    | some body =>
        by_cases hbody : cleanLabel body = "" <;> simp [edge, hlabel, Option.filter, hbody]
  · obtain ⟨rule, hrule, hglyph⟩ := List.mem_map.mp hfits.glyph
    rw [edge, ← hglyph, connectorOf_glyph hc.nodup hrule]
    exact hrule

theorem Reads.exists_readEdge? (h : r.Reads rules line) :
    ∃ found, readEdge? rules line = some found := by
  obtain ⟨hfits, tail, rfl⟩ := h
  exact Option.isSome_iff_exists.mp (readEdge?_isSome hfits tail)

theorem Agrees.edge_eq {rules' : List ConnectorRule} (ha : r.Agrees r') (ht : r.target = r'.target)
    (hconnector :
      ConnectorRule.connectorOf rules r.glyph = ConnectorRule.connectorOf rules' r'.glyph) :
    r.edge rules = r'.edge rules' := by
  rw [edge, edge, ha.source, ha.label, ht, hconnector]

end EdgeReading

/-- A reading that fits and goes up to the end of an identifier is found, apart from its blanks. -/
theorem EdgeReading.Fits.exists_readEdge?_eq (hc : Clear rules) (h : r.Fits rules)
    (htail : Stops isIdChar tail) :
    ∃ r', readEdge? rules (r.text ++ tail) = some r' ∧ r.Agrees r' ∧ r.target = r'.target := by
  obtain ⟨r', hr'⟩ := Option.isSome_iff_exists.mp (readEdge?_isSome h tail)
  obtain ⟨hfits', tail', heq, htail'⟩ := exists_of_readEdge? hr'
  obtain ⟨ha, ht⟩ := h.agrees hc hfits' heq
  obtain ⟨ht, -⟩ := run_append_inj h.target.2 hfits'.target.2 htail htail' ht
  exact ⟨r', hr', ha, ht⟩

/-- The order of clear rules is not seen in what the reader finds. -/
theorem readEdge?_perm {rules' : List ConnectorRule} (hc : Clear rules) (hp : rules'.Perm rules)
    (line : List Char) :
    (readEdge? rules' line = none ∧ readEdge? rules line = none) ∨
      ∃ r r', readEdge? rules' line = some r ∧ readEdge? rules line = some r' ∧ r.Agrees r' ∧
        r.target = r'.target ∧ r.edge rules' = r'.edge rules := by
  cases h' : readEdge? rules' line with
  | none =>
      refine .inl ⟨rfl, ?_⟩
      by_contra hne
      obtain ⟨r, hr⟩ := Option.ne_none_iff_exists'.mp hne
      obtain ⟨hfits, tail, rfl, -⟩ := exists_of_readEdge? hr
      have := readEdge?_isSome (hfits.mono hp.symm.subset) tail
      rw [h'] at this
      cases this
  | some r =>
      obtain ⟨hfits, tail, rfl, htail⟩ := exists_of_readEdge? h'
      have hfits := hfits.mono hp.subset
      obtain ⟨r', hr', ha, ht⟩ := hfits.exists_readEdge?_eq hc htail
      refine .inr ⟨r, r', rfl, hr', ha, ht, ha.edge_eq ht ?_⟩
      obtain ⟨rule, hrule, hglyph⟩ := List.mem_map.mp hfits.glyph
      rw [← ha.glyph, ← hglyph, connectorOf_glyph hc.nodup hrule,
        connectorOf_glyph (hc.perm hp).nodup (hp.mem_iff.mpr hrule)]

namespace Statement

variable {rules rules' : Rules}

/-- The order of clear rules is not seen in what a line says. -/
theorem ofContent_perm (hc : Clear rules.connectors) (hs : rules'.shapes = rules.shapes)
    (hp : rules'.connectors.Perm rules.connectors) (content : List Char) :
    ofContent rules' content = ofContent rules content := by
  unfold ofContent
  rcases readEdge?_perm hc hp content with ⟨h', h⟩ | ⟨r, r', h', h, ha, ht, he⟩
  · simp [h', h, hs]
  · simp [h', h, hs, ha.labelSpan, endpoints, ha.source, ha.targetColumn, ht, he]

theorem ofLine_perm (hc : Clear rules.connectors) (hs : rules'.shapes = rules.shapes)
    (hp : rules'.connectors.Perm rules.connectors) (line : String) :
    ofLine rules' line = ofLine rules line := by
  simp only [ofLine, ofContent_perm hc hs hp]

theorem edge_ofLine {line : String} (h : isDirective (lineContent line) = false) :
    (ofLine rules line).edge =
      (readEdge? rules.connectors (lineContent line)).map (EdgeReading.edge rules.connectors) := by
  unfold ofLine
  rw [if_neg (by simp [h])]
  rfl

end Statement

end Flowchart.Grammar

namespace Flowchart.Registry

open Grammar

/-- **Edge lines are read by their grammar.**  With a clear table of glyphs, a line that is no
directive adds exactly one edge if some reading fits, namely what any such reading says, and none
otherwise; all readings say the same, and a table in another order reads every line alike. -/
theorem edges_add_of_clear {rules : Rules} (hc : Clear rules.connectors) {line : String}
    (hline : isDirective (lineContent line) = false) (registry : Registry) :
    (∀ r : EdgeReading, r.Reads rules.connectors (lineContent line) →
      ∃ e, r.Means rules.connectors (lineContent line) e ∧
        (registry.add (.ofLine rules line)).edges = registry.edges ++ [e]) ∧
    ((¬ ∃ r : EdgeReading, r.Reads rules.connectors (lineContent line)) →
      (registry.add (.ofLine rules line)).edges = registry.edges) ∧
    (∀ (r r' : EdgeReading) (e e' : Edge), r.Reads rules.connectors (lineContent line) →
      r'.Reads rules.connectors (lineContent line) →
      r.Means rules.connectors (lineContent line) e →
      r'.Means rules.connectors (lineContent line) e' → e = e') ∧
    (∀ rules' : Rules, rules'.shapes = rules.shapes → rules'.connectors.Perm rules.connectors →
      ∀ line', Statement.ofLine rules' line' = Statement.ofLine rules line') := by
  refine ⟨?_, ?_, ?_, fun rules' hs hp => Statement.ofLine_perm hc hs hp⟩
  · intro r hr
    obtain ⟨found, hfound⟩ := hr.exists_readEdge?
    obtain ⟨hreads, hmeans⟩ := EdgeReading.means_edge hc hfound
    refine ⟨found.edge rules.connectors, hmeans.congr (hreads.agrees hc hr), ?_⟩
    rw [add, Statement.edge_ofLine hline, hfound]
    rfl
  · intro hnone
    cases hfound : readEdge? rules.connectors (lineContent line) with
    | none =>
        rw [add, Statement.edge_ofLine hline, hfound]
        exact List.append_nil _
    | some found => exact absurd ⟨found, (EdgeReading.means_edge hc hfound).1⟩ hnone
  · intro r r' e e' hr hr' he he'
    exact (he.congr (hr.agrees hc hr')).unique hc he'

/-- A shape that looks like an edge, a glyph that starts with another one, a label in quotes and
more text behind the target. -/
theorem edges_add_of_clear_standard :
    let line := "end((x --> y)) ---|\"z\"| b--a;"
    let content := lineContent line
    let registry := Registry.empty.add (.ofLine .standard "a --- b")
    Clear Rules.standard.connectors ∧ isDirective content = false ∧
    (∀ r : EdgeReading, r.Reads Rules.standard.connectors content →
      ∃ e, r.Means Rules.standard.connectors content e ∧
        (registry.add (.ofLine .standard line)).edges = registry.edges ++ [e]) ∧
    ((¬ ∃ r : EdgeReading, r.Reads Rules.standard.connectors content) →
      (registry.add (.ofLine .standard line)).edges = registry.edges) ∧
    (∀ (r r' : EdgeReading) (e e' : Edge), r.Reads Rules.standard.connectors content →
      r'.Reads Rules.standard.connectors content → r.Means Rules.standard.connectors content e →
      r'.Means Rules.standard.connectors content e' → e = e') ∧
    (∀ rules' : Rules, rules'.shapes = Rules.standard.shapes →
      rules'.connectors.Perm Rules.standard.connectors →
      ∀ line', Statement.ofLine rules' line' = Statement.ofLine .standard line') :=
  have hline : isDirective (lineContent "end((x --> y)) ---|\"z\"| b--a;") = false := by decide
  ⟨clear_standard, hline, edges_add_of_clear clear_standard hline _⟩

end Flowchart.Registry
