import Flowchart.Proofs.Diagram.History
import Flowchart.Proofs.Diagram.Patch

/-! # Lines in another order

Only lines that declare a shape have to keep their order (`Grammar.declares`).  A node takes its
label and its shape from the first declaration of its id, and the mentions that declare something
are those of the lines that do (`Registry.filter_history`), so the other lines may stand anywhere
between them.  Moving these changes the order of the nodes and of the edges and nothing else
(`Registry.nodes_ofLines_perm`, `Registry.edges_ofLines_perm`), which a patch does not see
(`Diagram.hasChanges_between_of_moved`). -/

namespace Flowchart

open Grammar

/-! ### Lines that declare a shape -/

namespace Grammar

/-- A line is no directive, and a declaration is kept on it. -/
def declares (rules : Rules) (line : String) : Bool :=
  !isDirective (lineContent line) && !(Statement.declared rules (lineContent line)).isEmpty

def Mention.isDeclaring (m : Mention) : Bool := m.declared.isSome

theorem Statement.filter_mentions_of_not_declares {rules : Rules} {line : String}
    (h : declares rules line = false) :
    (ofLine rules line).mentions.filter Mention.isDeclaring = [] := by
  rw [List.filter_eq_nil_iff]
  intro m hm
  rw [ofLine] at hm
  split at hm
  · cases hm
  · next hread =>
      have hnone : declared rules (lineContent line) = [] := by
        simpa [declares, hread] using h
      rcases (mem_mentions_ofContent m).mp hm with hm | ⟨r, -, hm, -⟩
      · rw [hnone] at hm
        cases hm
      · simp only [endpoints, List.mem_cons, List.not_mem_nil, or_false] at hm
        rcases hm with rfl | rfl <;> simp [Mention.isDeclaring]

end Grammar

/-! ### The registry -/

section
variable {past past' : List Mention}

/-- Mentions that declare nothing do not count for the first declaration. -/
theorem firstDeclaration?_filter (past : List Mention) (id : String) :
    firstDeclaration? (past.filter Mention.isDeclaring) id = firstDeclaration? past id := by
  unfold firstDeclaration?
  induction past with
  | nil => rfl
  | cons m past ih =>
      rw [List.filter_cons]
      cases hm : m.declared with
      | none =>
          rw [if_neg (by simp [Mention.isDeclaring, hm]), List.findSome?_cons, hm, ite_self, ih]
      | some declared =>
          rw [if_pos (by simp [Mention.isDeclaring, hm]), List.findSome?_cons,
            List.findSome?_cons, ih]

theorem Node.ofHistory_congr
    (h : past.filter Mention.isDeclaring = past'.filter Mention.isDeclaring) :
    Node.ofHistory past = Node.ofHistory past' := by
  funext id
  unfold ofHistory
  rw [← firstDeclaration?_filter past, h, firstDeclaration?_filter]

end

namespace Registry

variable {rules : Rules} {lines lines' : List String}

/-- The declaring mentions of some lines stand on the lines that declare a shape. -/
theorem filter_history (rules : Rules) (lines : List String) :
    (history rules lines).filter Mention.isDeclaring =
      (history rules (lines.filter (declares rules))).filter Mention.isDeclaring := by
  induction lines with
  | nil => rfl
  | cons line lines ih =>
      rw [history, List.flatMap_cons, List.filter_append, List.filter_cons]
      split
      · rw [history, List.flatMap_cons, List.filter_append]
        exact congrArg _ ih
      · next h =>
          rw [Statement.filter_mentions_of_not_declares (by simpa using h), List.nil_append]
          exact ih

theorem nodes_ofLines_perm (hperm : lines.Perm lines')
    (hdeclaring : lines.filter (declares rules) = lines'.filter (declares rules)) :
    (ofLines rules lines).nodes.Perm (ofLines rules lines').nodes := by
  have hnode : Node.ofHistory (history rules lines) = Node.ofHistory (history rules lines') :=
    Node.ofHistory_congr (by rw [filter_history, hdeclaring, ← filter_history])
  have hids : ((history rules lines).map Mention.id).Perm
      ((history rules lines').map Mention.id) :=
    (hperm.flatMap_right _).map Mention.id
  rw [nodes_ofLines, nodes_ofLines, nodesOf, nodesOf, hnode]
  exact (eraseDups_perm hids).map _

theorem edges_ofLines_perm (hperm : lines.Perm lines') :
    (ofLines rules lines).edges.Perm (ofLines rules lines').edges := by
  rw [edges_ofLines, edges_ofLines]
  exact hperm.filterMap _

end Registry

/-! ### Diagrams -/

namespace Diagram

/-- **Lines that declare nothing may be moved.**  If lines change places and those that declare a
shape keep their order, then either both orders have no nodes, or both have a diagram and the patch
between the two is empty. -/
theorem hasChanges_between_of_moved {rules : Rules} {source : Source} {lines : List String}
    (hperm : source.lines.Perm lines)
    (hdeclaring : source.lines.filter (declares rules) = lines.filter (declares rules)) :
    (ofSource rules source = .error .noNodes ∧
      ofSource rules { source with lines } = .error .noNodes) ∨
    ∃ d d', ofSource rules source = .ok d ∧ ofSource rules { source with lines } = .ok d' ∧
      (Patch.between d d').hasChanges = false := by
  have hnodes := Registry.nodes_ofLines_perm hperm hdeclaring
  by_cases hnil : (Registry.ofLines rules source.lines).nodes = []
  · have hnil' : (Registry.ofLines rules lines).nodes = [] :=
      List.nil_perm.mp (hnil ▸ hnodes)
    exact .inl ⟨by simp [ofSource, hnil], by simp [ofSource, hnil']⟩
  · have hne : (Registry.ofLines rules lines).nodes ≠ [] := by
      intro hnil'
      exact hnil (List.perm_nil.mp (hnil' ▸ hnodes))
    refine .inr ⟨_, _, ofSource_eq_ok_iff.mpr ⟨hnil, rfl⟩, ofSource_eq_ok_iff.mpr ⟨hne, rfl⟩, ?_⟩
    exact Patch.hasChanges_between_of_perm (Registry.nodup_ids_ofLines rules source.lines) hnodes
      (Registry.edges_ofLines_perm hperm)

/-- Edges that come before or after the declarations of their ends, one of them twice. -/
theorem hasChanges_between_of_moved_edges :
    let lines := ["Z --- X", "Y[Late]", "Z --- X", "Y\x7bOther\x7d", "X(One) --> Y", "X -->|w| Y"]
    let moved := ["X -->|w| Y", "Y[Late]", "Y\x7bOther\x7d", "Z --- X", "X(One) --> Y", "Z --- X"]
    lines.Perm moved ∧
    lines.filter (declares .standard) = moved.filter (declares .standard) ∧
    ∃ d d', ofSource .standard { upgrades with lines } = .ok d ∧ d.ids = ["Z", "X", "Y"] ∧
      ofSource .standard { upgrades with lines := moved } = .ok d' ∧ d'.ids = ["X", "Y", "Z"] ∧
      (Patch.between d d').hasChanges = false := by
  intro lines moved
  have hperm : lines.Perm moved := by decide +kernel
  have hdeclaring : lines.filter (declares .standard) = moved.filter (declares .standard) := by
    decide +kernel
  have hread : ids <$> ofSource .standard { upgrades with lines } = .ok ["Z", "X", "Y"] := by
    decide +kernel
  have hreadMoved : ids <$> ofSource .standard { upgrades with lines := moved } =
      .ok ["X", "Y", "Z"] := by
    decide +kernel
  refine ⟨hperm, hdeclaring, ?_⟩
  rcases @hasChanges_between_of_moved .standard { upgrades with lines } moved hperm hdeclaring with
    ⟨hnone, -⟩ | ⟨d, d', hd, hd', hsame⟩
  · rw [hnone] at hread
    cases hread
  · rw [hd] at hread
    rw [hd'] at hreadMoved
    exact ⟨d, d', hd, Except.ok.inj hread, hd', Except.ok.inj hreadMoved, hsame⟩

end Diagram

end Flowchart
