import Flowchart.Proofs.Markup.Reading

/-! # Tags of a marked text

`tags` lists the tags of a text with their positions, as the reader meets them.  They can be found
bracket by bracket: a bracket opens a tag if it opens a group and an even number of backslashes
stands directly before it (`tags_eq_scanTags`).  So the tags of a text that is put together are
found in its parts, each in front of what follows it (`scanTags_append`).

Escaping leaves no tag in a run, taken by itself.  What follows may still close a bracket that the
run leaves open.  A run is sealed if this does not happen, and then, and only then, its escaped form
has no tag where it stands (`scanTags_escapeChars_eq_nil_iff`). -/

namespace Flowchart.Markup

/-! ### Finding tags -/

/-- The tags of pieces, each with the position of its bracket. -/
def tagsOfPieces (position : Nat) : List Piece → List (Nat × List Char)
  | [] => []
  | .char _ :: rest => tagsOfPieces (position + 1) rest
  | .group n body :: rest =>
    (if n % 2 = 0 then [(position + n, bracketed body)] else []) ++
      tagsOfPieces (position + n + body.length + 2) rest

def tags (s : List Char) : List (Nat × List Char) := tagsOfPieces 0 (pieces s)

/-- The tag that a bracket opens after a number of backslashes and in front of a text. -/
def tagAt (position slashes : Nat) (s : List Char) : List (Nat × List Char) :=
  if slashes % 2 = 0 then ((groupBody? s).map fun body => (position, bracketed body)).toList
  else []

/-- The number of backslashes directly before the place after a character. -/
def slashesBehind (slashes : Nat) (c : Char) : Nat :=
  if c = Text.backslash then slashes + 1 else 0

/-- The tags that the brackets of a text open after a number of backslashes, and in front of another
text. -/
def scanTags (after : List Char) (position slashes : Nat) : List Char → List (Nat × List Char)
  | [] => []
  | c :: s =>
    (if c = '[' then tagAt position slashes (s ++ after) else []) ++
      scanTags after (position + 1) (slashesBehind slashes c) s

/-- The number of backslashes directly before the end of a text. -/
def slashesAfter (slashes : Nat) (s : List Char) : Nat := s.foldl slashesBehind slashes

section
variable {s t after body run : List Char} {position slashes n : Nat} {ps : List Piece} {c : Char}

theorem tagAt_eq_nil_iff :
    tagAt position slashes s = [] ↔ (slashes % 2 = 0 → groupBody? s = none) := by
  unfold tagAt
  split
  · next heven => simp [heven]
  · next hodd => simp [hodd]

theorem scanTags_cons (after : List Char) (position slashes : Nat) (c : Char) (s : List Char) :
    scanTags after position slashes (c :: s) =
      (if c = '[' then tagAt position slashes (s ++ after) else []) ++
        scanTags after (position + 1) (slashesBehind slashes c) s := rfl

theorem scanTags_append (after : List Char) (position slashes : Nat) (s t : List Char) :
    scanTags after position slashes (s ++ t) = scanTags (t ++ after) position slashes s ++
      scanTags after (position + s.length) (slashesAfter slashes s) t := by
  induction s generalizing position slashes with
  | nil => rfl
  | cons c s ih =>
      have hposition : position + 1 + s.length = position + (c :: s).length := by
        rw [List.length_cons]
        omega
      rw [List.cons_append, scanTags_cons, scanTags_cons, ih, List.append_assoc, List.append_assoc,
        hposition]
      rfl

theorem scanTags_of_noBracket (h : '[' ∉ s) : scanTags after position slashes s = [] := by
  induction s generalizing position slashes with
  | nil => rfl
  | cons c s ih =>
      obtain ⟨hc, hs⟩ := not_or.mp (mt List.mem_cons.mpr h)
      rw [scanTags_cons, if_neg (Ne.symm hc), ih hs]
      rfl

theorem slashesAfter_backslashes (slashes n : Nat) :
    slashesAfter slashes (backslashes n) = slashes + n := by
  induction n with
  | zero => rfl
  | succ n ih =>
      rw [backslashes, List.replicate_succ', slashesAfter, List.foldl_append]
      exact congrArg (· + 1) ih

theorem noOpening_backslashes (n : Nat) : '[' ∉ backslashes n :=
  fun hmem => absurd (List.eq_of_mem_replicate hmem) (by decide)

theorem IsBody.noOpening (h : IsBody body) : '[' ∉ body := fun hmem => (h.noBracket _ hmem).2 rfl

theorem slashesAfter_closed (slashes : Nat) (s : List Char) :
    slashesAfter slashes (s ++ [']']) = 0 := by
  rw [slashesAfter, List.foldl_append]
  rfl

/-- The tag of a group after backslashes, and the tags behind it. -/
theorem scanTags_group (after : List Char) (position slashes n : Nat) (hbody : IsBody body)
    (s : List Char) :
    scanTags after position slashes (backslashes n ++ '[' :: (body ++ ']' :: s)) =
      (if (slashes + n) % 2 = 0 then [(position + n, bracketed body)] else []) ++
        scanTags after (position + n + body.length + 2) 0 s := by
  have htag : tagAt (position + n) (slashes + n) (body ++ ']' :: s ++ after) =
      if (slashes + n) % 2 = 0 then [(position + n, bracketed body)] else [] := by
    rw [tagAt, List.append_assoc, List.cons_append, hbody.groupBody?_append]
    rfl
  have hinside : '[' ∉ body ++ [']'] := by simpa using hbody.noOpening
  have hposition : position + n + 1 + (body ++ [']']).length = position + n + body.length + 2 := by
    rw [List.length_append, List.length_singleton]
    omega
  rw [scanTags_append, scanTags_of_noBracket (noOpening_backslashes n), List.nil_append,
    slashesAfter_backslashes, backslashes, List.length_replicate, scanTags_cons, if_pos rfl, htag,
    List.append_cons body, scanTags_append, scanTags_of_noBracket hinside, List.nil_append,
    slashesAfter_closed, hposition]

theorem Cut.tagsOfPieces_eq (h : Cut s ps) (hps : startsWithGroup ps = true → slashes = 0) :
    tagsOfPieces position ps = scanTags [] position slashes s := by
  induction h generalizing position slashes with
  | nil => rfl
  | plain hc hc' h ih =>
      rw [tagsOfPieces, scanTags_cons, if_neg hc', slashesBehind, if_neg hc, ih fun _ => rfl]
      rfl
  | bracket hopen h ih =>
      rw [tagsOfPieces, scanTags_cons, if_pos rfl, List.append_nil,
        tagAt_eq_nil_iff.mpr fun _ => hopen, slashesBehind, if_neg (by decide), ih fun _ => rfl]
      rfl
  | loose hloose h ih =>
      rw [tagsOfPieces, scanTags_cons, if_neg (by decide), ih fun hgroup => ?_]
      · rfl
      · rw [hloose] at hgroup
        cases hgroup
  | group n hbody h ih =>
      obtain rfl := hps rfl
      rw [tagsOfPieces, scanTags_group [] position 0 n hbody, ih fun _ => rfl, Nat.zero_add]

/-- The tags of a text are those that its brackets open. -/
theorem tags_eq_scanTags (s : List Char) : tags s = scanTags [] 0 0 s :=
  (cut_pieces s).tagsOfPieces_eq fun _ => rfl

theorem position_of_mem_scanTags {tag : Nat × List Char}
    (h : tag ∈ scanTags after position slashes s) :
    position ≤ tag.1 ∧ tag.1 < position + s.length := by
  induction s generalizing position slashes with
  | nil => cases h
  | cons c s ih =>
      rw [scanTags_cons, List.mem_append] at h
      rw [List.length_cons]
      rcases h with h | h
      · split at h
        · rw [tagAt] at h
          split at h
          · obtain ⟨body, -, rfl⟩ := Option.map_eq_some_iff.mp (Option.mem_toList.mp h)
            dsimp only
            omega
          · cases h
        · cases h
      · have := ih h
        omega

/-! ### Sealed runs -/

/-- No bracket of a run that opens no group in it opens one together with what follows, unless an
odd number of backslashes stands before it. -/
def Sealed (after : List Char) (slashes : Nat) : List Char → Prop
  | [] => True
  | c :: s =>
    (c = '[' → slashes % 2 = 0 → groupBody? s = none → groupBody? (s ++ after) = none) ∧
      Sealed after (slashesBehind slashes c) s

instance decidableSealed (after : List Char) :
    (slashes : Nat) → (s : List Char) → Decidable (Sealed after slashes s)
  | _, [] => isTrue trivial
  | slashes, c :: s =>
    have := decidableSealed after (slashesBehind slashes c) s
    inferInstanceAs (Decidable (_ ∧ _))

/-- Only the parity of the backslashes before a run matters. -/
theorem sealed_congr {slashes' : Nat} (h : slashes % 2 = slashes' % 2) :
    Sealed after slashes s ↔ Sealed after slashes' s := by
  induction s generalizing slashes slashes' with
  | nil => rfl
  | cons c s ih =>
      have hbehind : slashesBehind slashes c % 2 = slashesBehind slashes' c % 2 := by
        unfold slashesBehind
        split <;> omega
      rw [Sealed, Sealed, h, ih hbehind]

theorem sealed_of_noBracket (h : '[' ∉ s) : Sealed after slashes s := by
  induction s generalizing slashes with
  | nil => exact trivial
  | cons c s ih =>
      obtain ⟨hc, hs⟩ := not_or.mp (mt List.mem_cons.mpr h)
      exact ⟨fun heq => absurd heq.symm hc, ih hs⟩

theorem sealed_append_iff (h : '[' ∉ t) :
    Sealed after slashes (t ++ s) ↔ Sealed after (slashesAfter slashes t) s := by
  induction t generalizing slashes with
  | nil => rfl
  | cons c t ih =>
      obtain ⟨hc, ht⟩ := not_or.mp (mt List.mem_cons.mpr h)
      rw [List.cons_append, Sealed, ih ht]
      exact and_iff_right fun heq => absurd heq.symm hc

theorem sealed_group_iff (n : Nat) (hbody : IsBody body) :
    Sealed after slashes (backslashes n ++ '[' :: (body ++ ']' :: s)) ↔ Sealed after 0 s := by
  have hinside : '[' ∉ body ++ [']'] := by simpa using hbody.noOpening
  rw [sealed_append_iff (noOpening_backslashes n), Sealed, hbody.groupBody?_append,
    List.append_cons body, sealed_append_iff hinside, slashesAfter_closed]
  exact and_iff_right fun _ _ hnone => nomatch hnone

theorem sealed_of_untilClosing? (ht : untilClosing? after = none) : Sealed after slashes s := by
  induction s generalizing slashes with
  | nil => exact trivial
  | cons c s ih => exact ⟨fun _ _ hopen => groupBody?_append_eq_none hopen ht, ih⟩

/-- The guards of its groups close a run as long as it is sealed. -/
theorem Cut.scanTags_guard_eq_nil_iff (h : Cut s ps)
    (hps : startsWithGroup ps = true → slashes % 2 = 0) :
    scanTags after position slashes (guardedText (fun n => 2 * n + 1) ps) = [] ↔
      Sealed after slashes s := by
  induction h generalizing position slashes with
  | nil => exact iff_of_true rfl trivial
  | plain hc hc' h ih =>
      rw [guardedText_char, scanTags_cons, Sealed, if_neg hc', List.nil_append, slashesBehind,
        if_neg hc, ih fun _ => rfl]
      exact (and_iff_right fun heq => absurd heq hc').symm
  | bracket hopen h ih =>
      rw [guardedText_char, scanTags_cons, Sealed, if_pos rfl, List.append_eq_nil_iff,
        tagAt_eq_nil_iff, h.groupBody?_guard, slashesBehind, if_neg (by decide), ih fun _ => rfl]
      simp only [hopen, forall_const]
  | loose hloose h ih =>
      rw [guardedText_char, scanTags_cons, Sealed, if_neg (by decide), List.nil_append,
        ih fun hgroup => ?_]
      · exact (and_iff_right fun heq => absurd heq (by decide)).symm
      · rw [hloose] at hgroup
        cases hgroup
  | group n hbody h ih =>
      have heven := hps rfl
      have hodd : (slashes + (2 * n + 1)) % 2 ≠ 0 := by omega
      rw [guardedText_group, scanTags_group _ _ _ _ hbody, if_neg hodd, List.nil_append,
        ih fun _ => rfl, sealed_group_iff n hbody]

/-- One more backslash closes no bracket and opens none. -/
theorem untilClosing?_insert_backslash (s t : List Char) :
    untilClosing? (s ++ Text.backslash :: t) = none ↔ untilClosing? (s ++ t) = none := by
  induction s with
  | nil =>
      rw [List.nil_append, untilClosing?_cons_eq_none_iff (by decide)]
      exact forall_prop_of_true (by decide)
  | cons c s ih =>
      rw [List.cons_append, List.cons_append]
      by_cases hclose : c = ']'
      · simp [untilClosing?, hclose]
      · rw [untilClosing?_cons_eq_none_iff hclose, untilClosing?_cons_eq_none_iff hclose, ih]

theorem scanTags_insert_backslash (hs : s.getLast? = some Text.backslash) :
    scanTags (Text.backslash :: after) position slashes s = [] ↔
      scanTags after position slashes s = [] := by
  induction s generalizing position slashes with
  | nil => rfl
  | cons c s ih =>
      cases s with
      | nil =>
          obtain rfl : c = Text.backslash := by simpa using hs
          exact iff_of_true rfl rfl
      | cons d s =>
          have hgroup : groupBody? (d :: s ++ Text.backslash :: after) = none ↔
              groupBody? (d :: s ++ after) = none := by
            rw [List.cons_append, List.cons_append, groupBody?_cons_eq_none_iff,
              groupBody?_cons_eq_none_iff, untilClosing?_insert_backslash]
          rw [List.getLast?_cons_cons] at hs
          rw [scanTags_cons, scanTags_cons after, List.append_eq_nil_iff, List.append_eq_nil_iff,
            ih hs]
          refine and_congr_left fun _ => ?_
          split
          · rw [tagAt_eq_nil_iff, tagAt_eq_nil_iff, hgroup]
          · rfl

theorem untilClosing?_eq_none (h : ']' ∉ s) : untilClosing? s = none := by
  induction s with
  | nil => rfl
  | cons c s ih =>
      obtain ⟨hc, hs⟩ := not_or.mp (mt List.mem_cons.mpr h)
      exact (untilClosing?_cons_eq_none_iff (Ne.symm hc)).mpr fun _ => ih hs

theorem untilClosing?_escapeChars_append (run t : List Char) :
    untilClosing? (escapeChars run ++ t) = none ↔ untilClosing? (run ++ t) = none := by
  rw [← (cut_pieces run).untilClosing?_guard (f := fun n => 2 * n + 1) t]
  rcases escapeChars_eq run with heq | ⟨heq, -⟩
  · rw [heq]
  · rw [heq, List.append_assoc]
    exact untilClosing?_insert_backslash _ t

/-- **Sealed runs have no tags.**  The escaped form of a run, behind an even number of backslashes,
has no tag in front of what follows exactly if the run is sealed. -/
theorem scanTags_escapeChars_eq_nil_iff (heven : slashes % 2 = 0) :
    scanTags after position slashes (escapeChars run) = [] ↔ Sealed after slashes run := by
  have hguard : scanTags after position slashes
      (guardedText (fun n => 2 * n + 1) (pieces run)) = [] ↔ Sealed after slashes run :=
    (cut_pieces run).scanTags_guard_eq_nil_iff fun _ => heven
  rw [← hguard]
  rcases escapeChars_eq run with heq | ⟨heq, hlast⟩
  · rw [heq]
  · have hend : scanTags after (position + (guardedText (fun n => 2 * n + 1) (pieces run)).length)
        (slashesAfter slashes (guardedText (fun n => 2 * n + 1) (pieces run)))
        [Text.backslash] = [] :=
      scanTags_of_noBracket (by decide)
    rw [heq, scanTags_append, hend, List.append_nil]
    exact scanTags_insert_backslash hlast

end

end Flowchart.Markup
