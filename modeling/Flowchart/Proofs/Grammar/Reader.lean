import Mathlib.Data.List.Basic
import Mathlib.Data.List.TakeWhile
import Flowchart.Grammar.Edge

/-! # What the readers accept

Every reader of a line is described twice.  If it succeeds, the line is a piece of the expected form
followed by a rest that was handed on (`exists_of_readId`, `Enclosure.exists_of_read`,
`exists_of_readSuffix`, `exists_of_readGlyph`, `exists_of_readLabel`); and if what follows accepts
the rest after some such piece, the reader succeeds (`readId_isSome`, `Enclosure.read_wrap_append`,
`readSuffix_isSome`, `readGlyph_isSome`, `readLabel_isSome`).

A run of characters in `p` is the longest one when the text behind it `Stops p`; a text has only one
such beginning (`run_append_inj`). -/

namespace Flowchart.Grammar

/-- The text does not start with a character in `p`. -/
def Stops (p : Char → Bool) (s : List Char) : Prop := ∀ c ∈ s.head?, p c = false

variable {p q : Char → Bool} {s t run rest : List Char}

@[simp] theorem stops_nil (p : Char → Bool) : Stops p [] := by simp [Stops]

@[simp] theorem stops_cons {c : Char} : Stops p (c :: s) ↔ p c = false := by simp [Stops]

theorem Stops.append (hs : Stops p s) (ht : Stops p t) : Stops p (s ++ t) := by
  cases s with
  | nil => exact ht
  | cons c s => exact stops_cons.mpr (stops_cons.mp hs)

/-- A text of characters in `q` does not start with one in `p` if no character is in both. -/
theorem Stops.of_forall_mem (hq : ∀ c, q c = true → p c = false) (hs : ∀ c ∈ s, q c = true) :
    Stops p s := by
  cases s with
  | nil => exact stops_nil p
  | cons c s => exact stops_cons.mpr (hq c (hs c List.mem_cons_self))

theorem Stops.append_of_ne_nil (hs : Stops p s) (hne : s ≠ []) (t : List Char) :
    Stops p (s ++ t) := by
  cases s with
  | nil => exact absurd rfl hne
  | cons c s => exact stops_cons.mpr (stops_cons.mp hs)

/-- The text starts with a character in `p`. -/
def Starts (p : Char → Bool) (s : List Char) : Prop := ∃ c t, s = c :: t ∧ p c = true

theorem Starts.append (h : Starts p s) (t : List Char) : Starts p (s ++ t) := by
  obtain ⟨c, s, rfl, hc⟩ := h
  exact ⟨c, s ++ t, rfl, hc⟩

theorem Starts.stops (h : Starts p s) (hq : ∀ c, p c = true → q c = false) : Stops q s := by
  obtain ⟨c, s, rfl, hc⟩ := h
  exact stops_cons.mpr (hq c hc)

theorem Starts.not_stops (h : Starts p s) : ¬ Stops p s := by
  obtain ⟨c, s, rfl, hc⟩ := h
  rw [stops_cons, hc]
  decide

theorem starts_of_forall_mem (hne : s ≠ []) (h : ∀ c ∈ s, p c = true) : Starts p s := by
  cases s with
  | nil => exact absurd rfl hne
  | cons c s => exact ⟨c, s, rfl, h c List.mem_cons_self⟩

theorem takeWhile_run_append (hrun : ∀ c ∈ run, p c = true) (hrest : Stops p rest) :
    (run ++ rest).takeWhile p = run := by
  rw [List.takeWhile_append_of_pos hrun]
  cases rest with
  | nil => simp
  | cons c rest => simp [stops_cons.mp hrest]

/-- The longest run in `p` at the start of a text is determined. -/
theorem run_append_inj {run' rest' : List Char} (hrun : ∀ c ∈ run, p c = true)
    (hrun' : ∀ c ∈ run', p c = true) (hrest : Stops p rest) (hrest' : Stops p rest')
    (h : run ++ rest = run' ++ rest') : run = run' ∧ rest = rest' := by
  have hr : run = run' := by
    rw [← takeWhile_run_append hrun hrest, ← takeWhile_run_append hrun' hrest', h]
  subst hr
  exact ⟨rfl, List.append_cancel_left h⟩

theorem stops_dropWhile (p : Char → Bool) (s : List Char) : Stops p (s.dropWhile p) := by
  induction s with
  | nil => exact stops_nil p
  | cons c s ih =>
      rw [List.dropWhile_cons]
      split
      · exact ih
      · next hc => exact stops_cons.mpr (by simpa using hc)

/-! ### Identifiers and blanks -/

/-- The characters of identifiers, as one predicate on texts. -/
def IsId (s : List Char) : Prop := s ≠ [] ∧ ∀ c ∈ s, isIdChar c = true

instance (s : List Char) : Decidable (IsId s) :=
  decidable_of_iff (s ≠ [] ∧ s.all isIdChar) (by simp [IsId])

theorem IsId.starts (h : IsId s) : Starts isIdChar s := starts_of_forall_mem h.1 h.2

/-- A text of blanks, possibly empty. -/
def IsGap (s : List Char) : Prop := ∀ c ∈ s, Text.isBlank c = true

@[simp] theorem isGap_nil : IsGap [] := by simp [IsGap]

section
variable {α : Type} {next : List Char → Option α} {a : α}

theorem exists_of_readId (h : readId next s = some a) :
    ∃ id rest, s = id ++ rest ∧ IsId id ∧ next rest = some a := by
  cases s with
  | nil => simp [readId] at h
  | cons c s =>
      rw [readId] at h
      by_cases hc : isIdChar c = true
      · rw [if_pos hc] at h
        obtain ⟨run, rest, rfl, hrun, hnext⟩ := exists_of_readRun h
        exact ⟨c :: run, rest, rfl, ⟨by simp, List.forall_mem_cons.mpr ⟨hc, hrun⟩⟩, hnext⟩
      · rw [if_neg hc] at h
        cases h

theorem readId_isSome {id : List Char} (hid : IsId id) (h : (next rest).isSome) :
    (readId next (id ++ rest)).isSome := by
  obtain ⟨hne, hall⟩ := hid
  cases id with
  | nil => exact absurd rfl hne
  | cons c run =>
      obtain ⟨hc, hrun⟩ := List.forall_mem_cons.mp hall
      rw [List.cons_append, readId, if_pos hc]
      exact readRun_isSome hrun h

theorem readRun_some (p : Char → Bool) (f : List Char → α) (s : List Char) :
    readRun p (fun rest => some (f rest)) s = some (f (s.dropWhile p)) := by
  induction s with
  | nil => rfl
  | cons c s ih =>
      rw [readRun, List.dropWhile_cons]
      split
      · rw [ih]; rfl
      · rfl

/-- At the end of what is read, an identifier is as long as possible. -/
theorem exists_of_readId_some {f : List Char → α}
    (h : readId (fun rest => some (f rest)) s = some a) :
    ∃ id rest, s = id ++ rest ∧ IsId id ∧ Stops isIdChar rest ∧ f rest = a := by
  cases s with
  | nil => simp [readId] at h
  | cons c s =>
      rw [readId] at h
      by_cases hc : isIdChar c = true
      · rw [if_pos hc, readRun_some] at h
        refine ⟨c :: s.takeWhile isIdChar, s.dropWhile isIdChar, ?_, ⟨by simp, ?_⟩,
          stops_dropWhile isIdChar s, Option.some.inj h⟩
        · rw [List.cons_append, List.takeWhile_append_dropWhile]
        · exact List.forall_mem_cons.mpr ⟨hc, fun d hd => List.mem_takeWhile_imp hd⟩
      · rw [if_neg hc] at h
        cases h

end

/-! ### Enclosed labels -/

section
variable {α : Type}

namespace Enclosure

variable {e : Enclosure} {body : List Char} {next : List Char → List Char → Option α} {a : α}

theorem stop_mem_closing (e : Enclosure) : e.stop ∈ e.closing := List.getLast_mem e.closing_ne_nil

theorem getLast?_append_wrap (e : Enclosure) (s body : List Char) :
    (s ++ e.wrap body).getLast? = some e.stop := by
  rw [wrap, ← List.append_assoc, List.getLast?_append_of_ne_nil _ e.closing_ne_nil,
    List.getLast?_eq_some_getLast e.closing_ne_nil]
  rfl

/-- Before a closing, the label is all that holds no stop. -/
theorem label_append_closing (hbody : e.stop ∉ body) (rest : List Char) :
    e.label (body ++ (e.closing ++ rest)) = body := by
  have hb : ∀ c ∈ body, (c != e.stop) = true := by
    intro c hc
    simpa using ne_of_mem_of_not_mem hc hbody
  have hlead : (e.closing ++ rest).takeWhile (· != e.stop) = e.lead := by
    rw [List.takeWhile_append, if_neg, lead]
    intro hlen
    have hall := (List.takeWhile_prefix (l := e.closing) (· != e.stop)).eq_of_length hlen
    have hmem : e.stop ∈ e.closing.takeWhile (· != e.stop) := by rw [hall]; exact e.stop_mem_closing
    simpa using List.mem_takeWhile_imp hmem
  unfold label
  rw [List.takeWhile_append_of_pos hb, hlead]
  simp

theorem stop_notMem_label (e : Enclosure) (s : List Char) : e.stop ∉ e.label s := by
  intro hmem
  have := List.mem_takeWhile_imp (List.mem_of_mem_take hmem)
  simp at this

theorem label_append_drop (e : Enclosure) (s : List Char) :
    e.label s ++ s.drop (e.label s).length = s := by
  have hpre : e.label s <+: s := (List.take_prefix _ _).trans (List.takeWhile_prefix _)
  obtain ⟨t, ht⟩ := hpre
  calc e.label s ++ s.drop (e.label s).length
      = e.label s ++ (e.label s ++ t).drop (e.label s).length := by rw [ht]
    _ = s := by rw [List.drop_left, ht]

theorem exists_of_read (h : e.read next s = some a) :
    ∃ body rest, s = e.wrap body ++ rest ∧ e.stop ∉ body ∧ next body rest = some a := by
  unfold read at h
  obtain ⟨inner, hinner, h⟩ := Option.bind_eq_some_iff.mp h
  obtain ⟨rest, hrest, hnext⟩ := Option.bind_eq_some_iff.mp h
  rw [after?_eq_some_iff] at hinner hrest
  refine ⟨e.label inner, rest, ?_, e.stop_notMem_label inner, hnext⟩
  have hsplit := e.label_append_drop inner
  rw [hrest] at hsplit
  calc s = e.opening ++ (e.label inner ++ (e.closing ++ rest)) := by rw [hsplit, hinner]
    _ = e.wrap (e.label inner) ++ rest := by simp [wrap]

theorem read_wrap_append (hbody : e.stop ∉ body) (rest : List Char) :
    e.read next (e.wrap body ++ rest) = next body rest := by
  have hopen : after? e.opening (e.wrap body ++ rest) = some (body ++ (e.closing ++ rest)) := by
    simp [after?_eq_some_iff, wrap]
  unfold read
  rw [hopen, Option.bind_some, label_append_closing hbody, List.drop_left,
    after?_eq_some_iff.mpr rfl, Option.bind_some]

/-- A label without a stop ends at the first closing. -/
theorem wrap_append_inj {e : Enclosure} {body body' rest rest' : List Char} (hbody : e.stop ∉ body)
    (hbody' : e.stop ∉ body') (h : e.wrap body ++ rest = e.wrap body' ++ rest') :
    body = body' ∧ rest = rest' := by
  simp only [wrap, List.append_assoc, List.append_cancel_left_eq] at h
  have hb : body = body' := by
    rw [← label_append_closing hbody rest, ← label_append_closing hbody' rest', h]
  subst hb
  exact ⟨rfl, by simpa using h⟩

end Enclosure

/-! ### Pieces of an edge line -/

theorem orElse_eq_some {o o' : Option α} {a : α} (h : (o <|> o') = some a) :
    o = some a ∨ o' = some a := by
  cases o with
  | none => exact .inr h
  | some b => exact .inl h

theorem orElse_isSome {o o' : Option α} (h : o.isSome ∨ o'.isSome) : (o <|> o').isSome := by
  cases o with
  | none => simpa using h
  | some b => rfl

section
variable {next : Option (BracketRule × List Char) → List Char → Option α} {a : α}

/-- The text of an optional shape. -/
def suffixText : Option (BracketRule × List Char) → List Char
  | none => []
  | some (rule, body) => rule.enclosure.wrap body

/-- An optional shape that may stand after a source. -/
def IsSuffix (suffix : Option (BracketRule × List Char)) : Prop :=
  ∀ shape ∈ suffix, shape.1 ∈ suffixRules ∧ shape.1.enclosure.stop ∉ shape.2

theorem exists_of_readSuffix (h : readSuffix next s = some a) :
    ∃ suffix rest, s = suffixText suffix ++ rest ∧ IsSuffix suffix ∧ next suffix rest = some a := by
  unfold readSuffix at h
  rcases orElse_eq_some h with h | h
  · obtain ⟨rule, hrule, hread⟩ := List.exists_of_findSome?_eq_some h
    obtain ⟨body, rest, rfl, hbody, hnext⟩ := Enclosure.exists_of_read hread
    refine ⟨some (rule, body), rest, rfl, ?_, hnext⟩
    rintro _ ⟨⟩
    exact ⟨hrule, hbody⟩
  · exact ⟨none, s, rfl, by simp [IsSuffix], h⟩

theorem readSuffix_isSome {suffix : Option (BracketRule × List Char)} (hsuffix : IsSuffix suffix)
    (h : (next suffix rest).isSome) : (readSuffix next (suffixText suffix ++ rest)).isSome := by
  unfold readSuffix
  apply orElse_isSome
  cases suffix with
  | none => exact .inr h
  | some shape =>
      obtain ⟨hrule, hbody⟩ := hsuffix shape rfl
      refine .inl (List.findSome?_isSome_iff.mpr ⟨shape.1, hrule, ?_⟩)
      rw [suffixText, Enclosure.read_wrap_append hbody]
      exact h

end

section
variable {rules : List ConnectorRule} {next : List Char → List Char → Option α} {a : α}

theorem exists_of_readGlyph (h : readGlyph rules next s = some a) :
    ∃ glyph rest, s = glyph ++ rest ∧ glyph ∈ rules.map ConnectorRule.glyph ∧
      next glyph rest = some a := by
  obtain ⟨rule, hrule, hread⟩ := List.exists_of_findSome?_eq_some h
  obtain ⟨rest, hrest, hnext⟩ := Option.bind_eq_some_iff.mp hread
  exact ⟨rule.glyph, rest, after?_eq_some_iff.mp hrest, List.mem_map_of_mem hrule, hnext⟩

theorem readGlyph_isSome {glyph : List Char} (hglyph : glyph ∈ rules.map ConnectorRule.glyph)
    (h : (next glyph rest).isSome) : (readGlyph rules next (glyph ++ rest)).isSome := by
  obtain ⟨rule, hrule, rfl⟩ := List.mem_map.mp hglyph
  refine List.findSome?_isSome_iff.mpr ⟨rule, hrule, ?_⟩
  rw [after?_eq_some_iff.mpr rfl, Option.bind_some]
  exact h

end

section
variable {next : Option (List Char) → List Char → Option α} {a : α}

def labelText : Option (List Char) → List Char
  | none => []
  | some body => bars.wrap body

theorem exists_of_readLabel (h : readLabel next s = some a) :
    ∃ label rest, s = labelText label ++ rest ∧ (∀ body ∈ label, '|' ∉ body) ∧
      next label rest = some a := by
  rcases orElse_eq_some h with h | h
  · obtain ⟨body, rest, rfl, hbody, hnext⟩ := Enclosure.exists_of_read h
    exact ⟨some body, rest, rfl, by rintro _ ⟨⟩; exact hbody, hnext⟩
  · exact ⟨none, s, rfl, by simp, h⟩

theorem readLabel_isSome {label : Option (List Char)} (hlabel : ∀ body ∈ label, '|' ∉ body)
    (h : (next label rest).isSome) : (readLabel next (labelText label ++ rest)).isSome := by
  apply orElse_isSome
  cases label with
  | none => exact .inr h
  | some body =>
      refine .inl ?_
      rw [labelText, Enclosure.read_wrap_append (e := bars) (hlabel body rfl)]
      exact h

end

end

end Flowchart.Grammar
