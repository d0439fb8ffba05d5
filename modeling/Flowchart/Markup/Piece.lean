import Flowchart.Text.Quoted

/-! # Pieces of a marked text

A marked text is read as characters and bracket groups.  A group is a bracket, a lower-case letter
or one of `#`, `/`, `@`, any characters but brackets, and the closing bracket, together with the
backslashes directly before it.  `pieces` cuts a text, and `Piece.text` puts every piece back
(`flatMap_text_pieces`).

A text that is put between tags is escaped, so that no group of it is read as a tag: the backslashes
before a group are doubled and one more is added.  A single backslash at the end is doubled too,
since a tag may follow. -/

namespace Flowchart.Markup

/-- A character, or a bracket group with the number of backslashes before it. -/
inductive Piece
  | char (c : Char)
  | group (backslashes : Nat) (body : List Char)
deriving DecidableEq, Repr

def backslashes (n : Nat) : List Char := List.replicate n Text.backslash

/-- The text that a group's body stands in. -/
def bracketed (body : List Char) : List Char := '[' :: body ++ [']']

/-- The text that a piece was cut from. -/
def Piece.text : Piece → List Char
  | char c => [c]
  | group n body => backslashes n ++ bracketed body

/-- The characters that a group may start with. -/
def isTagLead (c : Char) : Bool := c.isLower || c == '#' || c == '/' || c == '@'

/-- What stands before the closing bracket, if no other bracket comes first. -/
def untilClosing? : List Char → Option (List Char)
  | [] => none
  | c :: rest =>
    if c = ']' then some []
    else if c = '[' then none
    else (untilClosing? rest).map (c :: ·)

/-- The body of the group whose opening bracket stands before some characters. -/
def groupBody? : List Char → Option (List Char)
  | [] => none
  | c :: rest => if isTagLead c then (untilClosing? rest).map (c :: ·) else none

/-- Backslashes that stand before no group. -/
def looseBackslashes (n : Nat) : List Piece := List.replicate n (.char Text.backslash)

/-- Cuts a text after `pending` backslashes; the next `covered` characters belong to the group
before them. -/
def piecesFrom (pending covered : Nat) : List Char → List Piece
  | [] => looseBackslashes pending
  | c :: rest =>
    if 0 < covered then piecesFrom pending (covered - 1) rest
    else if c = Text.backslash then piecesFrom (pending + 1) 0 rest
    else if c = '[' then
      match groupBody? rest with
      | some body => .group pending body :: piecesFrom 0 (body.length + 1) rest
      | none => looseBackslashes pending ++ .char c :: piecesFrom 0 0 rest
    else looseBackslashes pending ++ .char c :: piecesFrom 0 0 rest

def pieces (s : List Char) : List Piece := piecesFrom 0 0 s

/-! ### Nothing is lost -/

theorem exists_of_untilClosing? {s body : List Char} (h : untilClosing? s = some body) :
    ∃ rest, s = body ++ ']' :: rest := by
  induction s generalizing body with
  | nil => simp [untilClosing?] at h
  | cons c s ih =>
    unfold untilClosing? at h
    split at h
    · next hc => exact ⟨s, by simp_all⟩
    · split at h
      · simp at h
      · obtain ⟨tail, htail, rfl⟩ := Option.map_eq_some_iff.1 h
        obtain ⟨rest, rfl⟩ := ih htail
        exact ⟨rest, rfl⟩

theorem exists_of_groupBody? {s body : List Char} (h : groupBody? s = some body) :
    ∃ rest, s = body ++ ']' :: rest := by
  cases s with
  | nil => simp [groupBody?] at h
  | cons c s =>
    simp only [groupBody?] at h
    split at h
    · obtain ⟨tail, htail, rfl⟩ := Option.map_eq_some_iff.1 h
      obtain ⟨rest, rfl⟩ := exists_of_untilClosing? htail
      exact ⟨rest, rfl⟩
    · simp at h

theorem flatMap_text_looseBackslashes (n : Nat) :
    (looseBackslashes n).flatMap Piece.text = backslashes n := by
  induction n with
  | zero => rfl
  | succ n ih =>
    simpa [looseBackslashes, backslashes, List.replicate_succ, Piece.text] using ih

theorem flatMap_text_piecesFrom (pending covered : Nat) (s : List Char)
    (h : covered ≤ s.length) (hp : 0 < covered → pending = 0) :
    (piecesFrom pending covered s).flatMap Piece.text = backslashes pending ++ s.drop covered := by
  induction s generalizing pending covered with
  | nil =>
    obtain rfl : covered = 0 := by simpa using h
    simp [piecesFrom, flatMap_text_looseBackslashes]
  | cons c rest ih =>
    unfold piecesFrom
    split
    · next hcov =>
      obtain ⟨k, rfl⟩ : ∃ k, covered = k + 1 := ⟨covered - 1, by omega⟩
      simpa using ih pending k (by simpa using h) (fun _ => hp hcov)
    · next hcov =>
      obtain rfl : covered = 0 := by omega
      have plain : (looseBackslashes pending ++ Piece.char c :: piecesFrom 0 0 rest).flatMap
          Piece.text = backslashes pending ++ c :: rest := by
        simp [flatMap_text_looseBackslashes, Piece.text, ih 0 0 (by simp) (by simp), backslashes]
      split
      · next hc =>
        rw [ih (pending + 1) 0 (by simp) (by simp), hc]
        simp [backslashes, List.replicate_succ']
      · split
        · next hc =>
          split
          · next body hbody =>
            obtain ⟨tail, htail⟩ := exists_of_groupBody? hbody
            simp [ih 0 (body.length + 1) (by simp [htail]) (by simp), Piece.text, bracketed, hc]
            simp [htail, backslashes]
          · exact plain
        · exact plain

theorem flatMap_text_pieces (s : List Char) : (pieces s).flatMap Piece.text = s := by
  simpa [pieces, backslashes] using flatMap_text_piecesFrom 0 0 s (by simp) (by simp)

/-! ### Escaping -/

/-- A piece as it is written in an escaped text. -/
def Piece.escaped : Piece → List Char
  | .char c => [c]
  | .group n body => backslashes (2 * n + 1) ++ bracketed body

/-- A text ends in exactly one backslash, or in one after another character. -/
def endsInLoneBackslash (s : List Char) : Bool :=
  match s.reverse with
  | [] => false
  | [c] => c == Text.backslash
  | c :: d :: _ => c == Text.backslash && d != Text.backslash

/-- Doubles a single backslash at the end. -/
def doubleLast (s : List Char) : List Char :=
  if endsInLoneBackslash s then s ++ [Text.backslash] else s

/-- The escaped form of a text. -/
def escapeChars (s : List Char) : List Char :=
  doubleLast ((pieces s).flatMap Piece.escaped)

def escape (s : String) : String := String.ofList (escapeChars s.toList)

end Flowchart.Markup
