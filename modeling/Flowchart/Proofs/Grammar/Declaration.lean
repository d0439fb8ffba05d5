import Flowchart.Grammar.Mention
import Flowchart.Proofs.Grammar.EdgeLine

/-! # What a scan declares

Whatever the rules find, `declarations` keeps declarations that stand apart
(`pairwise_declarations`), and all others start inside of one that it keeps
(`mem_declarations_or_exists`).

`BracketRule.Declares` says, without a scan, what a declaration in brackets is: an identifier that
no identifier character stands before, directly followed by a label in the enclosure of the rule.
All that the scan of a rule gives is of this form (`declares_of_mem_occurrences`), and so is all
that `declarations` keeps of it (`exists_of_mem_declarations`).

A rule is detached when no identifier can run into its opening.  The identifier of a declaration is
then the longest one at its column, so that it does not depend on the rule (`Declares.id_eq`). -/

namespace Flowchart.Grammar

namespace BracketRule

variable {rule : BracketRule} {s line : List Char} {d : Declaration}

/-- A declaration by a rule on a line. -/
inductive Declares (rule : BracketRule) : List Char → Declaration → Prop
  | intro {front id body rest : List Char} (hid : IsId id) (hbody : rule.enclosure.stop ∉ body)
      (hfront : ∀ c ∈ front.getLast?, isIdChar c = false) :
      Declares rule (front ++ (id ++ (rule.enclosure.wrap body ++ rest)))
        ⟨front.length, front.length + rule.span id body, String.ofList id, cleanLabel body,
          rule.shape⟩

/-! ### The scan of a rule -/

/-- The declarations of a rule from a column on. -/
def occurrencesFrom (rule : BracketRule) (column : Nat) (inside : Bool) (covered : Nat)
    (s : List Char) : List Declaration :=
  (rule.findFrom column inside covered s).map fun f => f.declaration rule.shape

/-- The declarations of a rule on a line. -/
def occurrences (rule : BracketRule) (line : List Char) : List Declaration :=
  rule.occurrencesFrom 0 false 0 line

@[simp] theorem occurrencesFrom_nil (rule : BracketRule) (column : Nat) (inside : Bool)
    (covered : Nat) : rule.occurrencesFrom column inside covered [] = [] := rfl

theorem occurrencesFrom_cons (rule : BracketRule) (column : Nat) (inside : Bool) (covered : Nat)
    (c : Char) (s : List Char) : rule.occurrencesFrom column inside covered (c :: s) =
      match if covered = 0 ∧ inside = false then rule.read? (c :: s) else none with
      | some (id, body) =>
        ⟨column, column + rule.span id body, String.ofList id, cleanLabel body, rule.shape⟩ ::
          rule.occurrencesFrom (column + 1) (isIdChar c) (rule.span id body - 1) s
      | none => rule.occurrencesFrom (column + 1) (isIdChar c) (covered - 1) s := by
  unfold occurrencesFrom
  rw [findFrom]
  cases if covered = 0 ∧ inside = false then rule.read? (c :: s) else none <;> rfl

theorem exists_of_read? {id body : List Char} (h : rule.read? s = some (id, body)) :
    ∃ rest, s = id ++ (rule.enclosure.wrap body ++ rest) ∧ IsId id ∧
      rule.enclosure.stop ∉ body := by
  obtain ⟨id', inner, rfl, hid, h⟩ := exists_of_readId h
  obtain ⟨body', rest, rfl, hbody, h⟩ := Enclosure.exists_of_read h
  obtain ⟨rfl, rfl⟩ : id' = id ∧ body' = body := by simpa using h
  exact ⟨rest, rfl, hid, hbody⟩

theorem declares_of_mem_occurrencesFrom (front : List Char) {inside : Bool} {covered : Nat}
    (hinside : inside = front.getLast?.any isIdChar)
    (h : d ∈ rule.occurrencesFrom front.length inside covered s) :
    rule.Declares (front ++ s) d := by
  induction s generalizing front inside covered with
  | nil => simp at h
  | cons c s ih =>
      have hnext : ∀ covered, d ∈ rule.occurrencesFrom (front.length + 1) (isIdChar c) covered s →
          rule.Declares (front ++ c :: s) d := by
        intro covered hmem
        have hlen : (front ++ [c]).length = front.length + 1 := by simp
        rw [← hlen] at hmem
        have := ih (front ++ [c]) (by simp) hmem
        rwa [List.append_assoc, List.singleton_append] at this
      rw [occurrencesFrom_cons] at h
      split at h
      · next id body hread =>
          by_cases hstart : covered = 0 ∧ inside = false
          · rw [if_pos hstart] at hread
            rcases List.mem_cons.mp h with rfl | hmem
            · obtain ⟨rest, heq, hid, hbody⟩ := exists_of_read? hread
              have hfront : ∀ c ∈ front.getLast?, isIdChar c = false := by
                intro c hc
                rw [Option.mem_def] at hc
                simpa [hstart.2, hc] using hinside.symm
              rw [heq]
              exact .intro hid hbody hfront
            · exact hnext _ hmem
          · rw [if_neg hstart] at hread
            cases hread
      · exact hnext _ h

theorem declares_of_mem_occurrences (h : d ∈ rule.occurrences line) : rule.Declares line d :=
  declares_of_mem_occurrencesFrom [] rfl h

/-! ### Detached rules -/

/-- No identifier runs into the opening. -/
structure Detached (rule : BracketRule) : Prop where
  ne_nil : rule.enclosure.opening ≠ []
  stops : Stops isIdChar rule.enclosure.opening

theorem Detached.stops_wrap (h : rule.Detached) (body rest : List Char) :
    Stops isIdChar (rule.enclosure.wrap body ++ rest) := by
  rw [Enclosure.wrap, List.append_assoc, List.append_assoc]
  exact h.stops.append_of_ne_nil h.ne_nil _

theorem detached_of_mem_standard (h : rule ∈ standard) : rule.Detached := by
  simp only [standard, List.mem_cons, List.not_mem_nil, or_false] at h
  rcases h with rfl | rfl | rfl | rfl <;> exact ⟨by decide, stops_cons.mpr (by decide)⟩

/-- The id of a declaration is the longest identifier at its column. -/
theorem Declares.id_eq (h : rule.Declares line d) (hr : rule.Detached) :
    d.id = String.ofList ((line.drop d.column).takeWhile isIdChar) := by
  obtain ⟨hid, hbody, hfront⟩ := h
  rw [List.drop_left, takeWhile_run_append hid.2 (hr.stops_wrap _ _)]

theorem Declares.exists_drop_eq (h : rule.Declares line d) :
    ∃ id body rest, line.drop d.column = id ++ (rule.enclosure.wrap body ++ rest) ∧ IsId id ∧
      rule.enclosure.stop ∉ body := by
  obtain ⟨hid, hbody, hfront⟩ := h
  exact ⟨_, _, _, List.drop_left, hid, hbody⟩

/-- A declaration stays where it is when a line goes on. -/
theorem Declares.append (h : rule.Declares line d) (tail : List Char) :
    rule.Declares (line ++ tail) d := by
  obtain ⟨hid, hbody, hfront⟩ := h
  simpa only [List.append_assoc] using Declares.intro hid hbody hfront

theorem Declares.column_lt (h : rule.Declares line d) : d.column < line.length := by
  obtain ⟨id, body, rest, hdrop, hid, -⟩ := h.exists_drop_eq
  have hlength := congrArg List.length hdrop
  have hpos := List.length_pos_iff.mpr hid.1
  rw [List.length_drop, List.length_append] at hlength
  omega

theorem Declares.isId (h : rule.Declares line d) : IsId d.id.toList := by
  obtain ⟨hid, hbody, hfront⟩ := h
  rwa [String.toList_ofList]

theorem Declares.column_lt_stop (h : rule.Declares line d) : d.column < d.stop := by
  obtain ⟨hid, hbody, hfront⟩ := h
  have hpos := List.length_pos_iff.mpr hid.1
  dsimp only [span]
  omega

/-- A detached rule reads the declaration that starts a text. -/
theorem Detached.read?_append (hr : rule.Detached) {id body : List Char} (hid : IsId id)
    (hbody : rule.enclosure.stop ∉ body) (rest : List Char) :
    rule.read? (id ++ (rule.enclosure.wrap body ++ rest)) = some (id, body) := by
  have hsome : (rule.read? (id ++ (rule.enclosure.wrap body ++ rest))).isSome :=
    readId_isSome hid (by rw [Enclosure.read_wrap_append hbody]; rfl)
  obtain ⟨⟨id', body'⟩, hread⟩ := Option.isSome_iff_exists.mp hsome
  obtain ⟨rest', heq, hid', hbody'⟩ := exists_of_read? hread
  obtain ⟨rfl, hwrap⟩ := run_append_inj hid.2 hid'.2 (hr.stops_wrap _ _) (hr.stops_wrap _ _) heq
  obtain ⟨rfl, -⟩ := Enclosure.wrap_append_inj hbody hbody' hwrap
  exact hread

theorem declaration_mem_occurrences {f : Finding} (h : f ∈ rule.findFrom 0 false 0 line) :
    f.declaration rule.shape ∈ rule.occurrences line :=
  List.mem_map_of_mem h

end BracketRule

/-- All that a rule finds starts with an identifier, the longest one at its column. -/
structure ShapeRule.Detached (rule : ShapeRule) : Prop where
  isId : ∀ line, ∀ f ∈ rule.find line, IsId f.id.toList
  id_eq : ∀ line, ∀ f ∈ rule.find line,
    f.id = String.ofList ((line.drop f.column).takeWhile isIdChar)

theorem BracketRule.Detached.ofBracket {rule : BracketRule} (h : rule.Detached) :
    (ShapeRule.ofBracket rule).Detached where
  isId _ _ hf := (declares_of_mem_occurrences (declaration_mem_occurrences hf)).isId
  id_eq _ _ hf := (declares_of_mem_occurrences (declaration_mem_occurrences hf)).id_eq h

/-! ### The declarations that are kept -/

section
variable {l : List Declaration} {d : Declaration} {free : Nat}

theorem mem_of_mem_keepApart (h : d ∈ keepApart free l) : d ∈ l := by
  induction l generalizing free with
  | nil => exact h
  | cons e l ih =>
      unfold keepApart at h
      split at h
      · exact List.mem_cons_of_mem e (ih h)
      · rcases List.mem_cons.mp h with rfl | hmem
        · exact List.mem_cons_self
        · exact List.mem_cons_of_mem e (ih hmem)

theorem free_le_of_mem_keepApart (hstop : ∀ e ∈ l, e.column ≤ e.stop)
    (h : d ∈ keepApart free l) : free ≤ d.column := by
  induction l generalizing free with
  | nil => cases h
  | cons e l ih =>
      obtain ⟨he, hl⟩ := List.forall_mem_cons.mp hstop
      unfold keepApart at h
      split at h
      · exact ih hl h
      · next hfree =>
          rcases List.mem_cons.mp h with rfl | hmem
          · omega
          · have := ih hl hmem
            omega

theorem pairwise_keepApart (free : Nat) (hstop : ∀ e ∈ l, e.column ≤ e.stop) :
    (keepApart free l).Pairwise fun d e => d.stop ≤ e.column := by
  induction l generalizing free with
  | nil => exact .nil
  | cons e l ih =>
      obtain ⟨he, hl⟩ := List.forall_mem_cons.mp hstop
      unfold keepApart
      split
      · exact ih free hl
      · exact List.pairwise_cons.mpr ⟨fun d hd => free_le_of_mem_keepApart hl hd, ih e.stop hl⟩

/-- What is not kept starts before `free`, or inside of what is kept. -/
theorem mem_keepApart_or_exists (free : Nat) (hsorted : l.Pairwise fun d e => d.column ≤ e.column)
    (h : d ∈ l) : d ∈ keepApart free l ∨ d.column < free ∨
      ∃ e ∈ keepApart free l, e.column ≤ d.column ∧ d.column < e.stop := by
  induction l generalizing free with
  | nil => cases h
  | cons e l ih =>
      obtain ⟨he, hl⟩ := List.pairwise_cons.mp hsorted
      unfold keepApart
      split
      · next hbefore =>
          rcases List.mem_cons.mp h with rfl | hmem
          · exact .inr (.inl hbefore)
          · exact ih free hl hmem
      · rcases List.mem_cons.mp h with rfl | hmem
        · exact .inl List.mem_cons_self
        · rcases ih e.stop hl hmem with hkept | hinside | ⟨f, hf, hcovers⟩
          · exact .inl (List.mem_cons_of_mem e hkept)
          · exact .inr (.inr ⟨e, List.mem_cons_self, he d hmem, hinside⟩)
          · exact .inr (.inr ⟨f, List.mem_cons_of_mem e hf, hcovers⟩)

end

section
variable {rules : List ShapeRule} {excluded : Option Span} {line : List Char} {d : Declaration}

theorem mem_candidates : d ∈ candidates rules excluded line ↔
    (∃ rule ∈ rules, d ∈ rule.occurrences line) ∧ covers excluded d.column = false := by
  rw [candidates, (sortBy_perm _ _).mem_iff, List.mem_filter, List.mem_flatMap, Bool.not_eq_true']

theorem column_le_stop_of_mem_candidates (h : d ∈ candidates rules excluded line) :
    d.column ≤ d.stop := by
  obtain ⟨⟨rule, -, hmem⟩, -⟩ := mem_candidates.mp h
  obtain ⟨f, -, rfl⟩ := List.mem_map.mp hmem
  exact f.column_le_stop

theorem exists_find_of_mem_declarations (h : d ∈ declarations rules excluded line) :
    ∃ rule ∈ rules, ∃ f ∈ rule.find line, f.declaration rule.shape = d ∧
      covers excluded d.column = false := by
  obtain ⟨⟨rule, hrule, hmem⟩, hcovers⟩ := mem_candidates.mp (mem_of_mem_keepApart h)
  obtain ⟨f, hf, hd⟩ := List.mem_map.mp hmem
  exact ⟨rule, hrule, f, hf, hd, hcovers⟩

theorem pairwise_declarations (rules : List ShapeRule) (excluded : Option Span)
    (line : List Char) :
    (declarations rules excluded line).Pairwise fun d e => d.stop ≤ e.column :=
  pairwise_keepApart 0 fun _ he => column_le_stop_of_mem_candidates he

/-- A declaration that is not kept starts inside of one that is. -/
theorem mem_declarations_or_exists (h : d ∈ candidates rules excluded line) :
    d ∈ declarations rules excluded line ∨
      ∃ e ∈ declarations rules excluded line, e.column ≤ d.column ∧ d.column < e.stop := by
  have hsorted : (candidates rules excluded line).Pairwise fun d e => d.column ≤ e.column :=
    pairwise_sortBy_key Declaration.column _
  rcases mem_keepApart_or_exists 0 hsorted h with hkept | hbefore | hinside
  · exact .inl hkept
  · exact absurd hbefore (Nat.not_lt_zero _)
  · exact .inr hinside

end

/-! ### The declarations in brackets that are kept -/

section
variable {rules : List BracketRule} {excluded : Option Span} {line : List Char} {d : Declaration}

theorem flatMap_occurrences_ofBracket (rules : List BracketRule) (line : List Char) :
    ((rules.map ShapeRule.ofBracket).flatMap fun rule => rule.occurrences line) =
      rules.flatMap fun rule => rule.occurrences line :=
  List.flatMap_map ..

theorem mem_candidates_ofBracket :
    d ∈ candidates (rules.map ShapeRule.ofBracket) excluded line ↔
      (∃ rule ∈ rules, d ∈ rule.occurrences line) ∧ covers excluded d.column = false := by
  refine mem_candidates.trans (and_congr_left fun _ => ?_)
  constructor
  · rintro ⟨_, hmem, hd⟩
    obtain ⟨rule, hrule, rfl⟩ := List.mem_map.mp hmem
    exact ⟨rule, hrule, hd⟩
  · rintro ⟨rule, hrule, hd⟩
    exact ⟨.ofBracket rule, List.mem_map_of_mem hrule, hd⟩

theorem exists_of_mem_declarations
    (h : d ∈ declarations (rules.map ShapeRule.ofBracket) excluded line) :
    ∃ rule ∈ rules, rule.Declares line d ∧ covers excluded d.column = false := by
  obtain ⟨⟨rule, hrule, hmem⟩, hcovers⟩ := mem_candidates_ofBracket.mp (mem_of_mem_keepApart h)
  exact ⟨rule, hrule, BracketRule.declares_of_mem_occurrences hmem, hcovers⟩

/-- Declarations in brackets are not empty, so no two columns are the same. -/
theorem pairwise_column_declarations (rules : List BracketRule) (excluded : Option Span)
    (line : List Char) : (declarations (rules.map ShapeRule.ofBracket) excluded line).Pairwise
      fun d e => d.column < e.column := by
  refine (pairwise_declarations _ excluded line).imp_of_mem fun hd _ hle => ?_
  obtain ⟨rule, -, hdeclares, -⟩ := exists_of_mem_declarations hd
  exact Nat.lt_of_lt_of_le hdeclares.column_lt_stop hle

end

end Flowchart.Grammar
