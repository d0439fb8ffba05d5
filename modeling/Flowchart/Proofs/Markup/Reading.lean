import Mathlib.Data.List.Chain
import Flowchart.Markup.Reader
import Flowchart.Proofs.Fallible
import Flowchart.Proofs.Markup.Cut

/-! # What a marked text shows

`untag` reads the pieces of a text: tags are dropped, and so are the backslashes that escape
something.  Where the reader of marked texts gives a text, it is this one (`eq_untag_of_shownText`).

A run is legible in front of a text that closes none of its brackets and takes none of its
backslashes, if none of its own backslashes stands directly before a bracket that opens nothing.  An
escaped run is then shown as it is (`Legible.untag_append`). -/

namespace Flowchart.Markup

/-! ### Reading pieces -/

/-- What pieces show: a tag shows nothing, a literal group itself, and a backslash before a bracket
is dropped. -/
def untagPieces : List Piece → List Char
  | [] => []
  | .char c :: rest =>
    if c = Text.backslash ∧ rest.head? = some (.char '[') then untagPieces rest
    else c :: untagPieces rest
  | .group n body :: rest =>
    backslashes (n / 2) ++ (if n % 2 = 1 then bracketed body else []) ++ untagPieces rest

/-- What a marked text shows. -/
def untag (s : List Char) : List Char := untagPieces (pieces s)

theorem untagPieces_chars_append {rest : List Piece} (hrest : rest.head? ≠ some (.char '['))
    (s : List Char) : untagPieces (s.map .char ++ rest) = dropEscapes s ++ untagPieces rest := by
  induction s with
  | nil => rfl
  | cons c s ih =>
      have hhead : (s.map Piece.char ++ rest).head? = some (.char '[') ↔ s.head? = some '[' := by
        cases s with
        | nil => simpa using hrest
        | cons d s => simp
      simp only [List.map_cons, List.cons_append, untagPieces, dropEscapes, hhead, ih]
      split <;> rfl

theorem eq_untagPieces_of_readPieces {ps : List Piece} {position : Nat} {opened : List OpenTag}
    {before shown : List Char} (h : readPieces position opened before ps = .ok shown) :
    shown = untagPieces (before.reverse.map .char ++ ps) := by
  induction ps generalizing position opened before shown with
  | nil =>
      obtain rfl := Except.ok.inj h
      rw [untagPieces_chars_append (by simp)]
      exact (List.append_nil _).symm
  | cons p ps ih =>
      cases p with
      | char c =>
          rw [ih h, List.reverse_cons, List.map_append, List.append_assoc]
          rfl
      | group n body =>
          rw [untagPieces_chars_append (by simp), untagPieces, ← List.append_assoc]
          simp only [readPieces] at h
          split at h
          · next hodd =>
              obtain ⟨rest, hrest, h⟩ := exists_of_bind_eq_ok h
              obtain rfl := Except.ok.inj h
              rw [if_pos hodd, ih hrest]
              simp only [List.append_assoc]
              rfl
          · next heven =>
              obtain ⟨opened', -, h⟩ := exists_of_bind_eq_ok h
              obtain ⟨rest, hrest, h⟩ := exists_of_bind_eq_ok h
              obtain rfl := Except.ok.inj h
              rw [if_neg heven, ih hrest]
              simp only [List.append_assoc]
              rfl

/-- Where the reader gives a text, it is the text without its tags. -/
theorem eq_untag_of_shownText {s shown : String} (h : shownText s = .ok shown) :
    shown.toList = untag s.toList := by
  obtain ⟨chars, hchars, rfl⟩ := exists_of_map_eq_ok h
  rw [String.toList_ofList, eq_untagPieces_of_readPieces hchars]
  rfl

/-! ### Legible runs -/

section
variable {s t run rest body : List Char} {ps qs : List Piece}

/-- No backslash is directly before a bracket that opens nothing. -/
def Unescaped (ps : List Piece) : Prop :=
  ps.IsChain fun p q => ¬ (p = .char Text.backslash ∧ q = .char '[')

instance (ps : List Piece) : Decidable (Unescaped ps) := by unfold Unescaped; infer_instance

theorem untagPieces_guard_append (h : Unescaped ps) (hsettled : Settled ps) (qs : List Piece) :
    untagPieces (ps.map (Piece.guard fun n => 2 * n + 1) ++ qs) =
      ps.flatMap Piece.text ++ untagPieces qs := by
  induction ps with
  | nil => rfl
  | cons p ps ih =>
      have hps := ih h.of_cons hsettled.of_cons
      rw [List.map_cons, List.cons_append, List.flatMap_cons, List.append_assoc, ← hps]
      cases p with
      | char c =>
          rw [Piece.guard, untagPieces, if_neg]
          · rfl
          · rintro ⟨rfl, hhead⟩
            cases ps with
            | nil => exact hsettled rfl
            | cons q ps =>
                cases q with
                | char d =>
                    obtain rfl := Piece.char.inj (Option.some.inj hhead)
                    exact (List.isChain_cons_cons.mp h).1 ⟨rfl, rfl⟩
                | group n body => cases hhead
      | group n body =>
          have hhalf : (2 * n + 1) / 2 = n := by omega
          have hodd : (2 * n + 1) % 2 = 1 := by omega
          rw [Piece.guard, untagPieces, hhalf, if_pos hodd]
          rfl

/-- An escaped run, as long as its end is not doubled. -/
theorem untag_guardedText_append (hrun : Unescaped (pieces run)) (hopen : KeepsOpen run rest)
    (hlast : run.getLast? ≠ some Text.backslash) :
    untag (guardedText (fun n => 2 * n + 1) (pieces run) ++ rest) = run ++ untag rest := by
  have hsettled := settled_pieces hlast
  have hcut := (cut_pieces run).guard_append (f := fun n => 2 * n + 1) (cut_pieces rest) hopen
    hsettled
  rw [untag, hcut.pieces_eq, untagPieces_guard_append hrun hsettled, flatMap_text_pieces]
  rfl

theorem untag_tag (hbody : IsBody body) (n : Nat) (t : List Char) :
    untag (backslashes (2 * n) ++ (bracketed body ++ t)) = backslashes n ++ untag t := by
  have hcut := Cut.group (2 * n) hbody (cut_pieces t)
  have htext : backslashes (2 * n) ++ (bracketed body ++ t) =
      backslashes (2 * n) ++ '[' :: (body ++ ']' :: t) := by
    simp [bracketed]
  have hhalf : 2 * n / 2 = n := by omega
  have heven : ¬ 2 * n % 2 = 1 := by omega
  rw [htext, untag, hcut.pieces_eq, untagPieces, hhalf, if_neg heven, List.append_nil]
  rfl

theorem endsInLoneBackslash_concat (s : List Char) (c : Char) :
    endsInLoneBackslash (s ++ [c]) = true ↔
      c = Text.backslash ∧ s.getLast? ≠ some Text.backslash := by
  cases s using List.reverseRecOn with
  | nil => simp [endsInLoneBackslash]
  | append_singleton s d => simp [endsInLoneBackslash]

theorem not_endsInLoneBackslash (h : s.getLast? ≠ some Text.backslash) :
    endsInLoneBackslash s = false := by
  cases s using List.reverseRecOn with
  | nil => rfl
  | append_singleton s c =>
      rw [List.getLast?_concat] at h
      rw [Bool.eq_false_iff, Ne, endsInLoneBackslash_concat]
      exact fun hlone => h (congrArg some hlone.1)

/-- An escaped text is the text with the guards of its groups, up to one more backslash behind one
at the end. -/
theorem escapeChars_eq (s : List Char) :
    escapeChars s = guardedText (fun n => 2 * n + 1) (pieces s) ∨
      escapeChars s = guardedText (fun n => 2 * n + 1) (pieces s) ++ [Text.backslash] ∧
        (guardedText (fun n => 2 * n + 1) (pieces s)).getLast? = some Text.backslash := by
  rw [escapeChars, flatMap_escaped, doubleLast]
  split
  · next hlone =>
      refine .inr ⟨rfl, ?_⟩
      by_contra hne
      rw [not_endsInLoneBackslash hne] at hlone
      cases hlone
  · exact .inl rfl

theorem getLast?_escapeChars (s : List Char) : (escapeChars s).getLast? = s.getLast? := by
  have hlast : (guardedText (fun n => 2 * n + 1) (pieces s)).getLast? = s.getLast? := by
    rw [getLast?_guardedText, flatMap_text_pieces]
  rcases escapeChars_eq s with heq | ⟨heq, hend⟩
  · rw [heq, hlast]
  · rw [heq, ← hlast, hend]
    exact List.getLast?_concat

/-- A tag comes first. -/
def startsWithTag : List Char → Bool
  | '[' :: s => (groupBody? s).isSome
  | _ => false

theorem exists_of_startsWithTag (h : startsWithTag s = true) :
    ∃ body t, s = bracketed body ++ t ∧ IsBody body := by
  unfold startsWithTag at h
  split at h
  · next s =>
      obtain ⟨body, hbody⟩ := Option.isSome_iff_exists.mp h
      obtain ⟨t, rfl⟩ := exists_of_groupBody? hbody
      exact ⟨body, t, by simp [bracketed], isBody_of_groupBody? hbody⟩
  · cases h

/-- A run that is shown as it is when it is escaped and the rest comes after it. -/
structure Legible (run rest : List Char) : Prop where
  unescaped : Unescaped (pieces run)
  keepsOpen : KeepsOpen run rest
  last : run.getLast? = some Text.backslash →
    endsInLoneBackslash run = true ∧ startsWithTag rest = true

instance (s t : List Char) : Decidable (KeepsOpen s t) :=
  decidable_of_iff (∀ u ∈ s.tails, u.head? = some '[' → groupBody? u.tail = none →
      groupBody? (u.tail ++ t) = none) <| by
    constructor
    · intro h back hback
      exact h _ ((List.mem_tails _ _).mpr hback) rfl
    · intro h u hu hhead
      obtain ⟨back, rfl⟩ := List.head?_eq_some_iff.mp hhead
      exact h back ((List.mem_tails _ _).mp hu)

instance (run rest : List Char) : Decidable (Legible run rest) :=
  decidable_of_iff (Unescaped (pieces run) ∧ KeepsOpen run rest ∧
      (run.getLast? = some Text.backslash →
        endsInLoneBackslash run = true ∧ startsWithTag rest = true))
    ⟨fun h => ⟨h.1, h.2.1, h.2.2⟩, fun h => ⟨h.1, h.2, h.3⟩⟩

theorem Legible.untag_append (h : Legible run rest) :
    untag (escapeChars run ++ rest) = run ++ untag rest := by
  rw [escapeChars, flatMap_escaped]
  by_cases hlast : run.getLast? = some Text.backslash
  · -- The backslash at the end is doubled, and the tag after it halves both again.
    obtain ⟨hlone, htag⟩ := h.last hlast
    obtain ⟨front, rfl⟩ := List.getLast?_eq_some_iff.mp hlast
    obtain ⟨body, t, rfl, hbody⟩ := exists_of_startsWithTag htag
    have hfront := ((endsInLoneBackslash_concat front _).mp hlone).2
    have hpieces : pieces (front ++ [Text.backslash]) = pieces front ++ [.char Text.backslash] :=
      pieces_append (keepsOpen_of_untilClosing? front (by decide)) hfront
    have hunescaped : Unescaped (pieces front) := by
      have := h.unescaped
      rw [hpieces] at this
      exact this.left_of_append
    have hopen : KeepsOpen front (backslashes 2 ++ (bracketed body ++ t)) :=
      keepsOpen_of_untilClosing? front (untilClosing?_backslashes_append 2 _)
    have htext : guardedText (fun n => 2 * n + 1) (pieces (front ++ [Text.backslash])) =
        guardedText (fun n => 2 * n + 1) (pieces front) ++ [Text.backslash] := by
      rw [hpieces, guardedText, List.map_append, List.flatMap_append]
      rfl
    have hguarded : (guardedText (fun n => 2 * n + 1) (pieces front)).getLast? ≠
        some Text.backslash := by
      rw [getLast?_guardedText, flatMap_text_pieces]
      exact hfront
    have hdouble : endsInLoneBackslash
        (guardedText (fun n => 2 * n + 1) (pieces front) ++ [Text.backslash]) = true :=
      (endsInLoneBackslash_concat _ _).mpr ⟨rfl, hguarded⟩
    have hread := untag_guardedText_append hunescaped hopen hfront
    rw [htext, doubleLast, if_pos hdouble, List.append_assoc, List.append_assoc, List.append_assoc]
    refine hread.trans ?_
    rw [untag_tag hbody 1]
    have hzero := untag_tag hbody 0 t
    exact congrArg _ (congrArg _ hzero.symm)
  · have hguarded : (guardedText (fun n => 2 * n + 1) (pieces run)).getLast? ≠
        some Text.backslash := by
      rw [getLast?_guardedText, flatMap_text_pieces]
      exact hlast
    rw [doubleLast, not_endsInLoneBackslash hguarded]
    exact untag_guardedText_append h.unescaped h.keepsOpen hlast

end

end Flowchart.Markup
