import Flowchart.Text.Blank

/-! # Reading pieces of a line

A reader takes a piece off the front of the remaining characters and hands the rest to what follows
it.  What follows may refuse; the reader then tries its next, shorter piece, so a line is accepted
exactly when some choice of pieces fits (`exists_of_readRun`, `readRun_isSome`), and the longest
pieces are preferred from left to right.  A piece is recovered from what stands before and after it
by `upTo`. -/

namespace Flowchart.Grammar

variable {α : Type}

/-- The characters of identifiers: ASCII letters, digits and the underscore. -/
def isIdChar (c : Char) : Bool := c.isAlphanum || c == '_'

/-- The beginning of a text, up to a rest of it. -/
def upTo (s rest : List Char) : List Char := s.take (s.length - rest.length)

@[simp] theorem upTo_append (piece rest : List Char) : upTo (piece ++ rest) rest = piece := by
  simp [upTo]

/-- The rest of a line after a literal that it starts with. -/
def after? : List Char → List Char → Option (List Char)
  | [], rest => some rest
  | _ :: _, [] => none
  | l :: literal, c :: rest => if l == c then after? literal rest else none

/-- Reads a run of characters in `p`, possibly empty, and prefers long runs. -/
def readRun (p : Char → Bool) (next : List Char → Option α) : List Char → Option α
  | [] => next []
  | c :: rest => if p c then readRun p next rest <|> next (c :: rest) else next (c :: rest)

/-- Reads an identifier: a run that is not empty. -/
def readId (next : List Char → Option α) : List Char → Option α
  | [] => none
  | c :: rest => if isIdChar c then readRun isIdChar next rest else none

/-- Reads blanks, possibly none. -/
def readBlanks (next : List Char → Option α) : List Char → Option α := readRun Text.isBlank next

/-! ### What a reader may hand on -/

theorem after?_eq_some_iff {literal s rest : List Char} :
    after? literal s = some rest ↔ s = literal ++ rest := by
  induction literal generalizing s with
  | nil => simp [after?]
  | cons l literal ih =>
    cases s with
    | nil => simp [after?]
    | cons c s =>
      by_cases h : l = c
      · simp [after?, h, ih]
      · simp [after?, h, Ne.symm h]

/-- The run before the rest that was handed on lies in `p`. -/
theorem exists_of_readRun {p : Char → Bool} {next : List Char → Option α} {s : List Char} {a : α}
    (h : readRun p next s = some a) :
    ∃ run rest, s = run ++ rest ∧ (∀ c ∈ run, p c = true) ∧ next rest = some a := by
  induction s with
  | nil => exact ⟨[], [], rfl, by simp, h⟩
  | cons c s ih =>
    have stop : next (c :: s) = some a →
        ∃ run rest, c :: s = run ++ rest ∧ (∀ c ∈ run, p c = true) ∧ next rest = some a :=
      fun h => ⟨[], c :: s, rfl, by simp, h⟩
    unfold readRun at h
    split at h
    · next hc =>
      cases hr : readRun p next s with
      | none => exact stop (by simpa [hr] using h)
      | some b =>
        obtain rfl : b = a := by simpa [hr] using h
        obtain ⟨run, rest, rfl, hrun, hnext⟩ := ih hr
        exact ⟨c :: run, rest, rfl, by simp [hc]; exact hrun, hnext⟩
    · exact stop h

/-- If what follows accepts the rest after some run, the reader succeeds. -/
theorem readRun_isSome {p : Char → Bool} {next : List Char → Option α} {run rest : List Char}
    (hrun : ∀ c ∈ run, p c = true) (h : (next rest).isSome) :
    (readRun p next (run ++ rest)).isSome := by
  induction run with
  | nil =>
    cases rest with
    | nil => simpa [readRun] using h
    | cons c rest =>
      simp only [List.nil_append, readRun]
      split
      · cases readRun p next rest <;> simp [h]
      · exact h
  | cons c run ih =>
    have hc : p c = true := hrun c (by simp)
    have := ih fun d hd => hrun d (by simp [hd])
    simp only [List.cons_append, readRun, hc, if_true]
    cases hr : readRun p next (run ++ rest) with
    | none => simp [hr] at this
    | some a => simp

end Flowchart.Grammar
