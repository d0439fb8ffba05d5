import Mathlib.Data.List.Infix
import Mathlib.Data.List.Induction
import Flowchart.Markup.Piece

/-! # How a marked text is cut

`Cut` describes, without a scan, how a text is cut into pieces: a bracket opens a group as soon as
it can, and the backslashes directly before a group belong to it.  Every text has a cut
(`cut_pieces`), and no other one (`Cut.pieces_eq`).

Escaping puts more backslashes before groups.  A text keeps its cut, also with more backslashes
before its groups, in front of another one that closes none of its brackets and takes none of its
backslashes (`Cut.guard_append`). -/

namespace Flowchart.Markup

/-! ### Bodies of groups -/

section
variable {s t body : List Char} {c : Char}

/-- What stands between the brackets of a group. -/
structure IsBody (body : List Char) : Prop where
  lead : ∃ c ∈ body.head?, isTagLead c = true
  noBracket : ∀ c ∈ body, c ≠ ']' ∧ c ≠ '['

theorem ne_bracket_of_isTagLead (h : isTagLead c = true) : c ≠ ']' ∧ c ≠ '[' := by
  constructor <;> rintro rfl <;> revert h <;> decide

theorem noBracket_of_untilClosing? (h : untilClosing? s = some body) :
    ∀ c ∈ body, c ≠ ']' ∧ c ≠ '[' := by
  induction s generalizing body with
  | nil => cases h
  | cons c s ih =>
      unfold untilClosing? at h
      split at h
      · obtain rfl := Option.some.inj h
        simp
      · next hclose =>
          split at h
          · cases h
          · next hopen =>
              obtain ⟨rest, hrest, rfl⟩ := Option.map_eq_some_iff.mp h
              exact List.forall_mem_cons.mpr ⟨⟨hclose, hopen⟩, ih hrest⟩

theorem untilClosing?_append (h : ∀ c ∈ body, c ≠ ']' ∧ c ≠ '[') (rest : List Char) :
    untilClosing? (body ++ ']' :: rest) = some body := by
  induction body with
  | nil => rfl
  | cons c body ih =>
      obtain ⟨⟨hclose, hopen⟩, hbody⟩ := List.forall_mem_cons.mp h
      rw [List.cons_append, untilClosing?, if_neg hclose, if_neg hopen, ih hbody]
      rfl

theorem isBody_of_groupBody? (h : groupBody? s = some body) : IsBody body := by
  cases s with
  | nil => cases h
  | cons c s =>
      simp only [groupBody?] at h
      split at h
      · next hlead =>
          obtain ⟨rest, hrest, rfl⟩ := Option.map_eq_some_iff.mp h
          refine ⟨⟨c, rfl, hlead⟩, ?_⟩
          exact List.forall_mem_cons.mpr
            ⟨ne_bracket_of_isTagLead hlead, noBracket_of_untilClosing? hrest⟩
      · cases h

theorem IsBody.groupBody?_append (h : IsBody body) (rest : List Char) :
    groupBody? (body ++ ']' :: rest) = some body := by
  obtain ⟨⟨c, hc, hlead⟩, hbody⟩ := h
  obtain ⟨tail, rfl⟩ := List.head?_eq_some_iff.mp hc
  rw [List.cons_append, groupBody?, if_pos hlead,
    untilClosing?_append (List.forall_mem_cons.mp hbody).2]
  rfl

theorem groupBody?_cons_eq_none_iff :
    groupBody? (c :: s) = none ↔ (isTagLead c = true → untilClosing? s = none) := by
  by_cases h : isTagLead c = true <;> simp [groupBody?, h]

theorem untilClosing?_cons_eq_none_iff (h : c ≠ ']') :
    untilClosing? (c :: s) = none ↔ (c ≠ '[' → untilClosing? s = none) := by
  by_cases hopen : c = '[' <;> simp [untilClosing?, h, hopen]

theorem groupBody?_eq_none (h : untilClosing? s = none) : groupBody? s = none := by
  cases s with
  | nil => rfl
  | cons c s =>
      rw [groupBody?_cons_eq_none_iff]
      intro hlead
      obtain ⟨hclose, hopen⟩ := ne_bracket_of_isTagLead hlead
      exact (untilClosing?_cons_eq_none_iff hclose).mp h hopen

theorem untilClosing?_append_eq_none (hs : untilClosing? s = none) (ht : untilClosing? t = none) :
    untilClosing? (s ++ t) = none := by
  induction s with
  | nil => exact ht
  | cons c s ih =>
      have hclose : c ≠ ']' := by
        rintro rfl
        cases hs
      rw [untilClosing?_cons_eq_none_iff hclose] at hs
      rw [List.cons_append, untilClosing?_cons_eq_none_iff hclose]
      exact fun hopen => ih (hs hopen)

/-- What closes no bracket closes none of the text before it either. -/
theorem groupBody?_append_eq_none (hs : groupBody? s = none) (ht : untilClosing? t = none) :
    groupBody? (s ++ t) = none := by
  cases s with
  | nil => exact groupBody?_eq_none ht
  | cons c s =>
      rw [groupBody?_cons_eq_none_iff] at hs
      rw [List.cons_append, groupBody?_cons_eq_none_iff]
      exact fun hlead => untilClosing?_append_eq_none (hs hlead) ht

theorem untilClosing?_backslashes_append (n : Nat) (t : List Char) :
    untilClosing? (backslashes n ++ '[' :: t) = none := by
  refine untilClosing?_append_eq_none ?_ ?_
  · induction n with
    | zero => rfl
    | succ n ih =>
        rw [backslashes, List.replicate_succ, untilClosing?_cons_eq_none_iff (by decide)]
        exact fun _ => ih
  · rw [untilClosing?_cons_eq_none_iff (by decide)]
    exact fun h => absurd rfl h

end

/-! ### The cut of a text -/

/-- A group comes first. -/
def startsWithGroup : List Piece → Bool
  | .group _ _ :: _ => true
  | _ => false

/-- A text is cut into pieces. -/
inductive Cut : List Char → List Piece → Prop
  | nil : Cut [] []
  | plain {c : Char} {s : List Char} {ps : List Piece} (hc : c ≠ Text.backslash) (hc' : c ≠ '[') :
      Cut s ps → Cut (c :: s) (.char c :: ps)
  | bracket {s : List Char} {ps : List Piece} (hopen : groupBody? s = none) :
      Cut s ps → Cut ('[' :: s) (.char '[' :: ps)
  | loose {s : List Char} {ps : List Piece} (hps : startsWithGroup ps = false) :
      Cut s ps → Cut (Text.backslash :: s) (.char Text.backslash :: ps)
  | group {s body : List Char} {ps : List Piece} (n : Nat) (hbody : IsBody body) :
      Cut s ps → Cut (backslashes n ++ '[' :: (body ++ ']' :: s)) (.group n body :: ps)

section
variable {s t : List Char} {ps : List Piece}

/-- Backslashes in front of pieces: they belong to a group that comes first. -/
def attach (n : Nat) : List Piece → List Piece
  | .group m body :: ps => .group (n + m) body :: ps
  | ps => looseBackslashes n ++ ps

theorem attach_of_not_startsWithGroup (n : Nat) (h : startsWithGroup ps = false) :
    attach n ps = looseBackslashes n ++ ps := by
  unfold attach
  split
  · cases h
  · rfl

theorem attach_add (m n : Nat) (ps : List Piece) : attach (m + n) ps = attach m (attach n ps) := by
  cases h : startsWithGroup ps with
  | true =>
      unfold startsWithGroup at h
      split at h
      · simp only [attach, Nat.add_assoc]
      · cases h
  | false =>
      have hloose : startsWithGroup (looseBackslashes n ++ ps) = false := by
        cases n with
        | zero => exact h
        | succ n => rfl
      rw [attach_of_not_startsWithGroup _ h, attach_of_not_startsWithGroup _ h,
        attach_of_not_startsWithGroup _ hloose, looseBackslashes, looseBackslashes,
        looseBackslashes, ← List.append_assoc, List.replicate_append_replicate]

theorem piecesFrom_covered (front rest : List Char) :
    piecesFrom 0 front.length (front ++ rest) = pieces rest := by
  induction front with
  | nil => rfl
  | cons c front ih =>
      rw [List.cons_append, piecesFrom, List.length_cons, if_pos (Nat.succ_pos _)]
      exact ih

theorem piecesFrom_backslash (n : Nat) (s : List Char) :
    piecesFrom n 0 (Text.backslash :: s) = piecesFrom (n + 1) 0 s := by
  rw [piecesFrom, if_neg (Nat.lt_irrefl 0), if_pos rfl]

theorem piecesFrom_group (n : Nat) {body : List Char} (hbody : IsBody body) (rest : List Char) :
    piecesFrom n 0 ('[' :: (body ++ ']' :: rest)) = .group n body :: pieces rest := by
  have hcovered := piecesFrom_covered (body ++ [']']) rest
  rw [List.length_append, List.append_assoc] at hcovered
  rw [piecesFrom, if_neg (Nat.lt_irrefl 0), if_neg (by decide), if_pos rfl]
  simp only [hbody.groupBody?_append]
  exact congrArg _ hcovered

theorem piecesFrom_bracket (n : Nat) (h : groupBody? s = none) :
    piecesFrom n 0 ('[' :: s) = looseBackslashes n ++ .char '[' :: pieces s := by
  rw [piecesFrom, if_neg (Nat.lt_irrefl 0), if_neg (by decide), if_pos rfl]
  simp only [h]
  rfl

theorem piecesFrom_plain (n : Nat) {c : Char} (hc : c ≠ Text.backslash) (hc' : c ≠ '[') :
    piecesFrom n 0 (c :: s) = looseBackslashes n ++ .char c :: pieces s := by
  rw [piecesFrom, if_neg (Nat.lt_irrefl 0), if_neg hc, if_neg hc']
  rfl

/-- Backslashes that were met before go to the pieces after them. -/
theorem piecesFrom_eq_attach (n : Nat) (s : List Char) :
    piecesFrom n 0 s = attach n (pieces s) := by
  induction s generalizing n with
  | nil => exact (List.append_nil _).symm
  | cons c s ih =>
      by_cases hc : c = Text.backslash
      · subst hc
        rw [pieces, piecesFrom_backslash, piecesFrom_backslash, ih, ih (0 + 1), ← attach_add,
          Nat.zero_add]
      · by_cases hc' : c = '['
        · subst hc'
          cases h : groupBody? s with
          | none =>
              rw [pieces, piecesFrom_bracket n h, piecesFrom_bracket 0 h]
              rfl
          | some body =>
              obtain ⟨rest, rfl⟩ := exists_of_groupBody? h
              have hbody := isBody_of_groupBody? h
              rw [pieces, piecesFrom_group n hbody, piecesFrom_group 0 hbody]
              rfl
        · rw [pieces, piecesFrom_plain n hc hc', piecesFrom_plain 0 hc hc']
          rfl

theorem pieces_backslash (s : List Char) : pieces (Text.backslash :: s) = attach 1 (pieces s) := by
  rw [pieces, piecesFrom_backslash, piecesFrom_eq_attach]

theorem Cut.attach (h : Cut s ps) : Cut (Text.backslash :: s) (attach 1 ps) := by
  cases h with
  | nil => exact .loose rfl .nil
  | plain hc hc' h => exact .loose rfl (.plain hc hc' h)
  | bracket hopen h => exact .loose rfl (.bracket hopen h)
  | loose hps h => exact .loose rfl (.loose hps h)
  | group n hbody h =>
      have hcut := Cut.group (1 + n) hbody h
      have hn : backslashes (1 + n) = Text.backslash :: backslashes n := by
        rw [Nat.add_comm]
        rfl
      rwa [hn] at hcut

theorem cut_pieces (s : List Char) : Cut s (pieces s) := by
  induction hn : s.length using Nat.strong_induction_on generalizing s with
  | _ n ih =>
      subst hn
      cases s with
      | nil => exact .nil
      | cons c s =>
          have hs : Cut s (pieces s) := ih _ (Nat.lt_succ_self _) s rfl
          by_cases hc : c = Text.backslash
          · rw [hc, pieces_backslash]
            exact hs.attach
          · by_cases hc' : c = '['
            · subst hc'
              cases h : groupBody? s with
              | none =>
                  rw [pieces, piecesFrom_bracket 0 h]
                  exact .bracket h hs
              | some body =>
                  obtain ⟨rest, rfl⟩ := exists_of_groupBody? h
                  have hbody := isBody_of_groupBody? h
                  rw [pieces, piecesFrom_group 0 hbody]
                  refine .group 0 hbody (ih _ ?_ rest rfl)
                  simp only [List.length_cons, List.length_append]
                  omega
            · rw [pieces, piecesFrom_plain 0 hc hc']
              exact .plain hc hc' hs

theorem pieces_backslashes_append (n : Nat) (s : List Char) :
    pieces (backslashes n ++ s) = piecesFrom n 0 s := by
  induction n generalizing s with
  | zero => rfl
  | succ n ih =>
      rw [backslashes, List.replicate_succ', List.append_assoc, List.singleton_append]
      rw [← piecesFrom_backslash]
      exact ih _

theorem Cut.pieces_eq (h : Cut s ps) : pieces s = ps := by
  induction h with
  | nil => rfl
  | plain hc hc' _ ih => rw [pieces, piecesFrom_plain 0 hc hc', ih]; rfl
  | bracket hopen _ ih => rw [pieces, piecesFrom_bracket 0 hopen, ih]; rfl
  | loose hps _ ih => rw [pieces_backslash, ih, attach_of_not_startsWithGroup 1 hps]; rfl
  | group n hbody _ ih => rw [pieces_backslashes_append, piecesFrom_group n hbody, ih]

end

/-! ### Pieces with other backslashes -/

/-- A piece whose group has another number of backslashes before it. -/
def Piece.guard (f : Nat → Nat) : Piece → Piece
  | .char c => .char c
  | .group n body => .group (f n) body

/-- The text of pieces whose groups have other numbers of backslashes before them. -/
def guardedText (f : Nat → Nat) (ps : List Piece) : List Char :=
  (ps.map (Piece.guard f)).flatMap Piece.text

theorem flatMap_escaped (ps : List Piece) :
    ps.flatMap Piece.escaped = guardedText (fun n => 2 * n + 1) ps := by
  rw [guardedText, List.flatMap_map]
  refine List.flatMap_congr fun p _ => ?_
  cases p <;> rfl

section
variable {f : Nat → Nat} {s t : List Char} {ps qs : List Piece}

@[simp] theorem guardedText_nil : guardedText f [] = [] := rfl

@[simp] theorem guardedText_char (c : Char) :
    guardedText f (.char c :: ps) = c :: guardedText f ps := rfl

@[simp] theorem guardedText_group (n : Nat) (body : List Char) :
    guardedText f (.group n body :: ps) =
      backslashes (f n) ++ '[' :: (body ++ ']' :: guardedText f ps) := by
  simp [guardedText, Piece.guard, Piece.text, bracketed]

/-- More backslashes close no bracket and open none. -/
theorem Cut.untilClosing?_guard (h : Cut s ps) (t : List Char) :
    untilClosing? (guardedText f ps ++ t) = none ↔ untilClosing? (s ++ t) = none := by
  induction h with
  | nil => rfl
  | @plain c s ps hc hc' h ih =>
      rw [guardedText_char, List.cons_append, List.cons_append]
      by_cases hclose : c = ']'
      · simp [untilClosing?, hclose]
      · rw [untilClosing?_cons_eq_none_iff hclose, untilClosing?_cons_eq_none_iff hclose, ih]
  | bracket hopen h ih => simp [untilClosing?]
  | loose hps h ih =>
      rw [guardedText_char, List.cons_append, List.cons_append,
        untilClosing?_cons_eq_none_iff (by decide), untilClosing?_cons_eq_none_iff (by decide), ih]
  | group n hbody h ih =>
      rw [guardedText_group, List.append_assoc, List.append_assoc, List.cons_append,
        List.cons_append, untilClosing?_backslashes_append, untilClosing?_backslashes_append]

theorem Cut.groupBody?_guard (h : Cut s ps) (t : List Char) :
    groupBody? (guardedText f ps ++ t) = none ↔ groupBody? (s ++ t) = none := by
  cases h with
  | nil => rfl
  | plain hc hc' h =>
      rw [guardedText_char, List.cons_append, List.cons_append, groupBody?_cons_eq_none_iff,
        groupBody?_cons_eq_none_iff, h.untilClosing?_guard]
  | bracket hopen h =>
      rw [guardedText_char, List.cons_append, List.cons_append, groupBody?_cons_eq_none_iff,
        groupBody?_cons_eq_none_iff, h.untilClosing?_guard]
  | loose hps h =>
      rw [guardedText_char, List.cons_append, List.cons_append, groupBody?_cons_eq_none_iff,
        groupBody?_cons_eq_none_iff, h.untilClosing?_guard]
  | group n hbody h =>
      rw [guardedText_group, List.append_assoc, List.append_assoc, List.cons_append,
        List.cons_append, groupBody?_eq_none (untilClosing?_backslashes_append _ _),
        groupBody?_eq_none (untilClosing?_backslashes_append _ _)]

/-- No bracket of a text that opens no group there opens one together with what follows it. -/
def KeepsOpen (s t : List Char) : Prop :=
  ∀ back, '[' :: back <:+ s → groupBody? back = none → groupBody? (back ++ t) = none

theorem KeepsOpen.of_suffix {s' : List Char} (h : KeepsOpen s t) (hs : s' <:+ s) :
    KeepsOpen s' t :=
  fun back hback => h back (hback.trans hs)

theorem keepsOpen_of_untilClosing? (s : List Char) (ht : untilClosing? t = none) : KeepsOpen s t :=
  fun _ _ hback => groupBody?_append_eq_none hback ht

/-- No backslash stands loose at the end, where a group after it would take it. -/
def Settled (ps : List Piece) : Prop := ps.getLast? ≠ some (.char Text.backslash)

theorem Settled.of_cons {p : Piece} (h : Settled (p :: ps)) : Settled ps := by
  intro hlast
  cases ps with
  | nil => cases hlast
  | cons p' ps => exact h (by rwa [List.getLast?_cons_cons])

theorem Settled.not_startsWithGroup (h : Settled (.char Text.backslash :: ps))
    (hps : startsWithGroup ps = false) :
    startsWithGroup (ps.map (Piece.guard f) ++ qs) = false := by
  cases ps with
  | nil => exact absurd rfl h
  | cons p ps =>
      cases p with
      | char c => rfl
      | group n body => cases hps

/-- A text keeps its cut in front of another text, also with other numbers of backslashes. -/
theorem Cut.guard_append (hs : Cut s ps) (ht : Cut t qs) (hopen : KeepsOpen s t)
    (hsettled : Settled ps) : Cut (guardedText f ps ++ t) (ps.map (Piece.guard f) ++ qs) := by
  induction hs with
  | nil => exact ht
  | plain hc hc' h ih =>
      exact .plain hc hc' (ih (hopen.of_suffix (List.suffix_cons _ _)) hsettled.of_cons)
  | bracket hgroup h ih =>
      refine .bracket ?_ (ih (hopen.of_suffix (List.suffix_cons _ _)) hsettled.of_cons)
      exact (h.groupBody?_guard t).mpr (hopen _ List.suffix_rfl hgroup)
  | loose hps h ih =>
      refine .loose ?_ (ih (hopen.of_suffix (List.suffix_cons _ _)) hsettled.of_cons)
      exact hsettled.not_startsWithGroup hps
  | @group s body ps n hbody h ih =>
      have hsuffix : s <:+ backslashes n ++ '[' :: (body ++ ']' :: s) :=
        ⟨backslashes n ++ '[' :: (body ++ [']']), by simp⟩
      have hcut := Cut.group (f n) hbody (ih (hopen.of_suffix hsuffix) hsettled.of_cons)
      rw [guardedText_group, List.append_assoc, List.cons_append, List.append_assoc,
        List.cons_append]
      exact hcut

theorem getLast?_guardedText (ps : List Piece) :
    (guardedText f ps).getLast? = (ps.flatMap Piece.text).getLast? := by
  cases ps using List.reverseRecOn with
  | nil => rfl
  | append_singleton ps p =>
      have hlast : ∀ q : Piece, q.text ≠ [] := by
        intro q
        cases q <;> simp [Piece.text, bracketed]
      have hgroup : ∀ n body, (Piece.group n body).text.getLast? = some ']' := by
        intro n body
        rw [Piece.text, bracketed, ← List.append_assoc]
        exact List.getLast?_concat
      have hp : (p.guard f).text.getLast? = p.text.getLast? := by
        cases p with
        | char c => rfl
        | group n body => rw [Piece.guard, hgroup, hgroup]
      simp only [guardedText, List.map_append, List.flatMap_append, List.map_singleton,
        List.flatMap_singleton, List.getLast?_append_of_ne_nil _ (hlast _), hp]

theorem settled_pieces (h : s.getLast? ≠ some Text.backslash) : Settled (pieces s) := by
  intro hlast
  apply h
  obtain ⟨ps, hps⟩ := List.getLast?_eq_some_iff.mp hlast
  rw [← flatMap_text_pieces s, hps, List.flatMap_append]
  exact List.getLast?_concat

theorem guardedText_id (ps : List Piece) : guardedText id ps = ps.flatMap Piece.text := by
  rw [guardedText, List.flatMap_map]
  refine List.flatMap_congr fun p _ => ?_
  cases p <;> rfl

theorem map_guard_id (ps : List Piece) : ps.map (Piece.guard id) = ps := by
  refine List.map_id'' (fun p => ?_) ps
  cases p <;> rfl

theorem pieces_append (hopen : KeepsOpen s t) (hlast : s.getLast? ≠ some Text.backslash) :
    pieces (s ++ t) = pieces s ++ pieces t := by
  have hcut := Cut.guard_append (f := id) (cut_pieces s) (cut_pieces t) hopen (settled_pieces hlast)
  rw [guardedText_id, map_guard_id, flatMap_text_pieces] at hcut
  exact hcut.pieces_eq

end

end Flowchart.Markup
