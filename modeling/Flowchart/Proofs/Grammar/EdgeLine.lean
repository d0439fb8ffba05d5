import Flowchart.Grammar.Mention
import Flowchart.Proofs.Grammar.Reader

/-! # The grammar of edge lines

A reading of a line fits the grammar (`EdgeReading.Fits`) when its pieces have the expected forms:
identifiers, blanks, an optional shape, the glyph of a rule and an optional label between bars.
The reader finds a reading that fits and whose target is as long as possible
(`exists_of_readEdge?`), and it finds one whenever one exists (`readEdge?_isSome`).  Both hold for
every table of rules. -/

namespace Flowchart.Grammar

variable {rules : List ConnectorRule} {line : List Char} {r : EdgeReading}

/-! ### Classes of characters -/

theorem toNat_of_isIdChar {c : Char} (h : isIdChar c = true) :
    (48 ≤ c.toNat ∧ c.toNat ≤ 57) ∨ (65 ≤ c.toNat ∧ c.toNat ≤ 90) ∨ c.toNat = 95 ∨
      (97 ≤ c.toNat ∧ c.toNat ≤ 122) := by
  have hrange : ∀ {first last : UInt32}, (decide (c.val ≥ first) && decide (c.val ≤ last)) = true →
      first.toNat ≤ c.toNat ∧ c.toNat ≤ last.toNat := by
    intro first last hc
    simpa [UInt32.le_iff_toNat_le] using hc
  rw [isIdChar, Bool.or_eq_true_iff, beq_iff_eq] at h
  rcases h with h | rfl
  · rcases Bool.or_eq_true_iff.mp h with h | h
    · rcases Bool.or_eq_true_iff.mp h with h | h
      · exact .inr (.inl (of_decide_eq_true h))
      · exact .inr (.inr (.inr (hrange h)))
    · exact .inl (hrange h)
  · exact .inr (.inr (.inl rfl))

theorem isBlank_of_isIdChar {c : Char} (h : isIdChar c = true) : Text.isBlank c = false := by
  have := toNat_of_isIdChar h
  simp only [Text.isBlank, Text.CodeRanges.has, Text.blankRanges, List.any_cons, List.any_nil,
    Bool.or_false, Bool.or_eq_false_iff, Bool.and_eq_false_iff, decide_eq_false_iff_not]
  omega

/-- The characters that open a shape or a label. -/
def isOpener (c : Char) : Bool := ['|', '(', '[', '\x7b'].contains c

/-- The characters that end a shape. -/
def isCloser (c : Char) : Bool := [')', ']', '\x7d'].contains c

/-- What a glyph is made of: neither identifier characters nor blanks, bars or brackets. -/
def isGlyphChar (c : Char) : Bool :=
  !(isIdChar c || Text.isBlank c || isOpener c || isCloser c)

theorem cases_of_isOpener {c : Char} (h : isOpener c = true) :
    c = '|' ∨ c = '(' ∨ c = '[' ∨ c = '\x7b' := by
  simpa [isOpener] using h

theorem cases_of_isCloser {c : Char} (h : isCloser c = true) : c = ')' ∨ c = ']' ∨ c = '\x7d' := by
  simpa [isCloser] using h

theorem isIdChar_of_isOpener {c : Char} (h : isOpener c = true) : isIdChar c = false := by
  rcases cases_of_isOpener h with rfl | rfl | rfl | rfl <;> decide

theorem isBlank_of_isOpener {c : Char} (h : isOpener c = true) : Text.isBlank c = false := by
  rcases cases_of_isOpener h with rfl | rfl | rfl | rfl <;> decide

theorem isCloser_of_isBlank {c : Char} (h : Text.isBlank c = true) : isCloser c = false := by
  by_contra hc
  rcases cases_of_isCloser (by simpa using hc) with rfl | rfl | rfl <;> revert h <;> decide

theorem isOpener_of_isIdChar {c : Char} (h : isIdChar c = true) : isOpener c = false := by
  by_contra hc
  rw [isIdChar_of_isOpener (by simpa using hc)] at h
  cases h

theorem isIdChar_of_isBlank {c : Char} (h : Text.isBlank c = true) : isIdChar c = false := by
  by_contra hc
  rw [isBlank_of_isIdChar (by simpa using hc)] at h
  cases h

theorem isGlyphChar_iff {c : Char} : isGlyphChar c = true ↔
    isIdChar c = false ∧ Text.isBlank c = false ∧ isOpener c = false ∧ isCloser c = false := by
  simp [isGlyphChar, and_assoc]

theorem isGlyphChar_of_isIdChar {c : Char} (h : isIdChar c = true) : isGlyphChar c = false := by
  simp [isGlyphChar, h]

theorem isGlyphChar_of_isBlank {c : Char} (h : Text.isBlank c = true) : isGlyphChar c = false := by
  simp [isGlyphChar, h]

theorem isGlyphChar_of_isOpener {c : Char} (h : isOpener c = true) : isGlyphChar c = false := by
  simp [isGlyphChar, h]

/-! ### Readings that fit -/

/-- The pieces have the forms that the grammar asks for. -/
structure EdgeReading.Fits (rules : List ConnectorRule) (r : EdgeReading) : Prop where
  source : IsId r.source
  gapSource : IsGap r.gapSource
  suffix : IsSuffix r.suffix
  gapSuffix : IsGap r.gapSuffix
  glyph : r.glyph ∈ rules.map ConnectorRule.glyph
  gapGlyph : IsGap r.gapGlyph
  label : ∀ body ∈ r.label, '|' ∉ body
  gapLabel : IsGap r.gapLabel
  target : IsId r.target

namespace EdgeReading

theorem suffixText_eq (r : EdgeReading) : r.suffixText = Grammar.suffixText r.suffix := by
  unfold suffixText Grammar.suffixText
  cases r.suffix <;> rfl

theorem labelText_eq (r : EdgeReading) : r.labelText = Grammar.labelText r.label := by
  unfold labelText Grammar.labelText
  cases r.label <;> rfl

theorem text_append (r : EdgeReading) (tail : List Char) :
    r.text ++ tail = r.source ++ (r.gapSource ++ (Grammar.suffixText r.suffix ++ (r.gapSuffix ++
      (r.glyph ++ (r.gapGlyph ++ (Grammar.labelText r.label ++ (r.gapLabel ++
        (r.target ++ tail)))))))) := by
  simp only [text, lead, suffixText_eq, labelText_eq, List.append_assoc]

theorem length_text_append (r : EdgeReading) (tail : List Char) :
    (r.text ++ tail).length = r.targetColumn + (r.target ++ tail).length := by
  simp only [text, targetColumn, List.length_append]
  omega

end EdgeReading

/-- What the reader finds fits, and its target is as long as possible. -/
theorem exists_of_readEdge? (h : readEdge? rules line = some r) :
    r.Fits rules ∧ ∃ tail, line = r.text ++ tail ∧ Stops isIdChar tail := by
  unfold readEdge? at h
  obtain ⟨source, r₁, rfl, hsource, h⟩ := exists_of_readId h
  obtain ⟨gapSource, r₂, rfl, hgapSource, h⟩ := exists_of_readRun h
  obtain ⟨suffix, r₃, rfl, hsuffix, h⟩ := exists_of_readSuffix h
  obtain ⟨gapSuffix, r₄, rfl, hgapSuffix, h⟩ := exists_of_readRun h
  obtain ⟨glyph, r₅, rfl, hglyph, h⟩ := exists_of_readGlyph h
  obtain ⟨gapGlyph, r₆, rfl, hgapGlyph, h⟩ := exists_of_readRun h
  obtain ⟨label, r₇, rfl, hlabel, h⟩ := exists_of_readLabel h
  obtain ⟨gapLabel, r₈, rfl, hgapLabel, h⟩ := exists_of_readRun h
  obtain ⟨target, r₉, rfl, htarget, hstops, h⟩ := exists_of_readId_some h
  simp only [upTo_append] at h
  subst h
  refine ⟨⟨hsource, hgapSource, hsuffix, hgapSuffix, hglyph, hgapGlyph, hlabel, hgapLabel, htarget⟩,
    r₉, ?_, hstops⟩
  rw [EdgeReading.text_append]

theorem readEdge?_isSome (h : r.Fits rules) (tail : List Char) :
    (readEdge? rules (r.text ++ tail)).isSome := by
  rw [EdgeReading.text_append]
  refine readId_isSome h.source ?_
  refine readRun_isSome h.gapSource ?_
  refine readSuffix_isSome h.suffix ?_
  refine readRun_isSome h.gapSuffix ?_
  refine readGlyph_isSome h.glyph ?_
  refine readRun_isSome h.gapGlyph ?_
  refine readLabel_isSome h.label ?_
  refine readRun_isSome h.gapLabel ?_
  refine readId_isSome h.target rfl

end Flowchart.Grammar
