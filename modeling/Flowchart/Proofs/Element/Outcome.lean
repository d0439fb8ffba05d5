import Flowchart.Proofs.Diagram.Outcome
import Flowchart.Proofs.Element.Exact

/-! # How a conversion ends

With the standard settings nothing is rounded as long as a diagram has fewer edges than the grid of
numbers allows (`Settings.draws_standard`), and a text has no more edges than characters.  So only
the text can fail: it has no content, or nothing in it speaks.  Any other text is drawn, and the
first element is the shape of the node that is mentioned first (`convert_ends`). -/

namespace Flowchart

open Grammar

/-- The standard settings are exact for very many edges. -/
theorem Settings.draws_standard {count : Nat} (h : count ≤ 2 ^ 40) :
    Settings.standard.Draws 0 count (Settings.standard.extent count) := by
  have hvalid : Settings.standard.fault? = none := by decide +kernel
  have hintegral : ∀ field, ∃ m : Int, Settings.standard.get field = .int m := by
    intro field
    cases field <;> exact ⟨_, rfl⟩
  have hextent : Settings.standard.extent count = 50 + 800 + 50 + count * (120 + 100 + 150) := rfl
  have hcount : (count : Rat) ≤ 2 ^ 40 := by exact_mod_cast h
  have hexact : Settings.standard.Exact 0 count :=
    Settings.exact_of_integral hintegral (by rw [hextent]; linarith)
  refine ⟨by decide, hexact.finite, hexact.whole,
    Settings.proper_of_fault?_eq_none hvalid hexact.finite, le_refl _, ?_⟩
  rw [hextent]
  linarith

section
variable {σ : Type} {g : Generator σ} {state state' : σ} {text : String}

theorem exists_head_of_synthesize {s : Settings} {root : Node} {others : List Node}
    {edges : List Edge} {positions : Positions} {elements : List Element}
    (h : synthesize g state s (root :: others) edges positions = .ok (elements, state')) :
    ∃ first rest, elements = first :: rest ∧
      (Element.shape (root.element s positions)).Redrawn first := by
  obtain ⟨outlined, houtline, h⟩ := exists_of_bind_eq_ok h
  obtain ⟨arrows, -, houtline⟩ := exists_of_bind_eq_ok houtline
  obtain rfl := Except.ok.inj houtline
  have helements := congrArg Prod.fst (Except.ok.inj h)
  rw [List.map_cons, List.cons_append, stampSeeds] at helements
  exact ⟨_, _, helements.symm, _, _, rfl⟩

/-- Elements start with the shape of the node that a text mentions first. -/
def LedByRoot (text : String) (elements : List Element) : Prop :=
  ∃ d positions root others first rest, Diagram.ofText text = .ok d ∧
    d.positions .standard = .ok positions ∧ d.nodes = root :: others ∧
    (Registry.history .standard (bodyLines text)).head?.map Mention.id = some root.id ∧
    elements = first :: rest ∧ (Element.shape (root.element .standard positions)).Redrawn first

theorem exists_convert_standard (g : Generator σ) (state : σ) (hlength : text.length < 2 ^ 40)
    {d : Diagram} (htext : Diagram.ofText text = .ok d) :
    ∃ elements state', convert text .standard g state = .ok (elements, state') ∧
      LedByRoot text elements := by
  have hedges := Diagram.length_edges_le_of_ofText htext
  have hdraws : Settings.standard.Draws 0 (d.edges.length + 1) _ :=
    Settings.draws_standard (by omega)
  obtain ⟨elements, state', hconvert⟩ :=
    exists_convert g state htext hdraws (Nat.lt_succ_self _)
  refine ⟨elements, state', hconvert, ?_⟩
  obtain ⟨d', positions, htext', hpositions, hdrawn⟩ := exists_of_convert hconvert
  obtain rfl := Except.ok.inj (htext'.symm.trans htext)
  obtain ⟨root, others, hnodes⟩ :=
    List.exists_cons_of_ne_nil (Diagram.nodes_ne_nil_of_ofText htext)
  have hroot := Registry.head?_map_id_ofLines .standard (bodyLines text)
  rw [← (Diagram.eq_ofLines_of_ofText htext).1, hnodes] at hroot
  rw [hnodes] at hdrawn
  obtain ⟨first, rest, helements, hredrawn⟩ := exists_head_of_synthesize hdrawn
  exact ⟨d', positions, root, others, first, rest, htext, hpositions, hnodes, hroot.symm,
    helements, hredrawn⟩

theorem convert_eq_error {s : Settings} {fault : ParseError}
    (h : Diagram.ofText text = .error fault) :
    convert text s g state = .error (.parse fault) := by
  rw [convert, h]
  rfl

/-- Only what the text lacks makes a conversion fail. -/
theorem convert_eq_error_iff (hlength : text.length < 2 ^ 40) {fault : ParseError} :
    convert text .standard g state = .error (.parse fault) ↔
      Diagram.ofText text = .error fault := by
  refine ⟨fun h => ?_, convert_eq_error⟩
  cases htext : Diagram.ofText text with
  | error fault' =>
      rw [convert_eq_error htext] at h
      obtain rfl := ConversionError.parse.inj (Except.error.inj h)
      rfl
  | ok d =>
      obtain ⟨elements, state', hconvert, -⟩ := exists_convert_standard g state hlength htext
      rw [hconvert] at h
      cases h

end

/-- **How a conversion ends.**  With the standard settings, a text of fewer than `2 ^ 40` characters
is refused as empty exactly if all its lines are blank or comments.  It is refused for want of nodes
exactly if it has content, but no line after the header speaks, directives apart.  Otherwise it is
drawn, and the first element is the shape of the node that is mentioned first.  The glyph of an edge
always has a rule. -/
theorem convert_ends {σ : Type} (g : Generator σ) (state : σ) {text : String}
    (hlength : text.length < 2 ^ 40) :
    (convert text .standard g state = .error (.parse .emptyText) ↔
      ∀ line ∈ Text.splitLines text.toList, IsSkipped line) ∧
    (convert text .standard g state = .error (.parse .noNodes) ↔
      contentLines text ≠ [] ∧ ∀ line ∈ bodyLines text,
        isDirective (lineContent line) = false → ¬ Statement.Speaks line.toList) ∧
    (convert text .standard g state = .error (.parse .emptyText) ∨
      convert text .standard g state = .error (.parse .noNodes) ∨
      ∃ elements state', convert text .standard g state = .ok (elements, state') ∧
        LedByRoot text elements) ∧
    ∀ line ∈ bodyLines text, ∀ r, readEdge? ConnectorRule.standard (lineContent line) = some r →
      ⟨r.glyph, (r.edge ConnectorRule.standard).connector⟩ ∈ ConnectorRule.standard := by
  rw [convert_eq_error_iff hlength, convert_eq_error_iff hlength]
  refine ⟨Diagram.ofText_eq_error_emptyText_iff, Diagram.ofText_eq_error_noNodes_iff, ?_, ?_⟩
  · cases htext : Diagram.ofText text with
    | error fault =>
        cases fault with
        | emptyText => exact .inl rfl
        | noNodes => exact .inr (.inl rfl)
    | ok d => exact .inr (.inr (exists_convert_standard g state hlength htext))
  · intro line _ r hread
    exact (EdgeReading.means_edge clear_standard hread).2.connector

/-- A text with a comment, a directive, a bracket that is not closed, an edge without a target and
one declaration. -/
def murmur : String := "%% note\n  graph TD\nclass A[x]\nB(y] --\nz C((u)) ;\nD -->"

/-- The same without the declaration. -/
def silence : String := "%% note\n  graph TD\nclass A[x]\nB(y] --\nD -->"

theorem convert_ends_murmur :
    silence.length < 2 ^ 40 ∧ murmur.length < 2 ^ 40 ∧
    (contentLines silence ≠ [] ∧ ∀ line ∈ bodyLines silence,
      isDirective (lineContent line) = false → ¬ Statement.Speaks line.toList) ∧
    ∃ elements state', convert murmur .standard (.progression 7) 0 = .ok (elements, state') ∧
      elements.map Element.id = ["C"] ∧ LedByRoot murmur elements := by
  have hsilence : silence.length < 2 ^ 40 := by decide +kernel
  have hmurmur : murmur.length < 2 ^ 40 := by decide +kernel
  have hrefused : convert silence .standard (.progression 7) 0 = .error (.parse .noNodes) :=
    convert_eq_error (by decide +kernel)
  have hdrawn : (fun drawn => drawn.1.map Element.id) <$>
      convert murmur .standard (.progression 7) 0 = .ok ["C"] := by
    decide +kernel
  refine ⟨hsilence, hmurmur, (convert_ends (.progression 7) 0 hsilence).2.1.mp hrefused, ?_⟩
  obtain ⟨-, -, hempty | hnone | ⟨elements, state', h, hled⟩, -⟩ :=
    convert_ends (.progression 7) 0 hmurmur
  · rw [hempty] at hdrawn
    cases hdrawn
  · rw [hnone] at hdrawn
    cases hdrawn
  · rw [h] at hdrawn
    exact ⟨elements, state', h, Except.ok.inj hdrawn, hled⟩

end Flowchart
