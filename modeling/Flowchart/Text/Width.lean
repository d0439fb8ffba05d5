import Flowchart.Text.Blank

/-! # Widths in a grid of character cells

A measure says how many cells a character takes.  It may say anything, but the ellipsis takes one
cell; characters that would take none, such as combining marks and controls, take one as well, so
that every character advances the cursor (`one_le_charWidth`).  The standard measure gives two cells
to wide characters and one to all others.

`fitText` shortens a text to a number of cells and marks the cut with an ellipsis. -/

namespace Flowchart.Text

/-- The mark of a shortened text. -/
def ellipsis : Char := '…'

/-- A measure of characters in cells. -/
class Measure where
  cells : Char → Int
  cells_ellipsis : cells ellipsis = 1

def wideRanges : CodeRanges :=
  [(0x1100, 0x115F), (0x231A, 0x231B), (0x2329, 0x232A), (0x23E9, 0x23EC), (0x23F0, 0x23F0),
   (0x23F3, 0x23F3), (0x25FD, 0x25FE), (0x2614, 0x2615), (0x2648, 0x2653), (0x267F, 0x267F),
   (0x2693, 0x2693), (0x26A1, 0x26A1), (0x26AA, 0x26AB), (0x26BD, 0x26BE), (0x26C4, 0x26C5),
   (0x26CE, 0x26CE), (0x26D4, 0x26D4), (0x26EA, 0x26EA), (0x26F2, 0x26F3), (0x26F5, 0x26F5),
   (0x26FA, 0x26FA), (0x26FD, 0x26FD), (0x2705, 0x2705), (0x270A, 0x270B), (0x2728, 0x2728),
   (0x274C, 0x274C), (0x274E, 0x274E), (0x2753, 0x2755), (0x2757, 0x2757), (0x2795, 0x2797),
   (0x27B0, 0x27B0), (0x27BF, 0x27BF), (0x2B1B, 0x2B1C), (0x2B50, 0x2B50), (0x2B55, 0x2B55),
   (0x2E80, 0x2E99), (0x2E9B, 0x2EF3), (0x2F00, 0x2FD5), (0x2FF0, 0x3029), (0x3030, 0x303E),
   (0x3041, 0x3096), (0x309B, 0x30FF), (0x3105, 0x312F), (0x3131, 0x318E), (0x3190, 0x31E3),
   (0x31EF, 0x321E), (0x3220, 0x3247), (0x3250, 0x4DBF), (0x4E00, 0xA48C), (0xA490, 0xA4C6),
   (0xA960, 0xA97C), (0xAC00, 0xD7A3), (0xF900, 0xFAFF), (0xFE10, 0xFE19), (0xFE30, 0xFE52),
   (0xFE54, 0xFE66), (0xFE68, 0xFE6B), (0xFF01, 0xFF60), (0xFFE0, 0xFFE6), (0x16FE0, 0x16FE3),
   (0x17000, 0x187F7), (0x18800, 0x18CD5), (0x18D00, 0x18D08), (0x1AFF0, 0x1AFF3),
   (0x1AFF5, 0x1AFFB), (0x1AFFD, 0x1AFFE), (0x1B000, 0x1B122), (0x1B132, 0x1B132),
   (0x1B150, 0x1B152), (0x1B155, 0x1B155), (0x1B164, 0x1B167), (0x1B170, 0x1B2FB),
   (0x1F004, 0x1F004), (0x1F0CF, 0x1F0CF), (0x1F18E, 0x1F18E), (0x1F191, 0x1F19A),
   (0x1F200, 0x1F202), (0x1F210, 0x1F23B), (0x1F240, 0x1F248), (0x1F250, 0x1F251),
   (0x1F260, 0x1F265), (0x1F300, 0x1F320), (0x1F32D, 0x1F335), (0x1F337, 0x1F37C),
   (0x1F37E, 0x1F393), (0x1F3A0, 0x1F3CA), (0x1F3CF, 0x1F3D3), (0x1F3E0, 0x1F3F0),
   (0x1F3F4, 0x1F3F4), (0x1F3F8, 0x1F3FA), (0x1F400, 0x1F43E), (0x1F440, 0x1F440),
   (0x1F442, 0x1F4FC), (0x1F4FF, 0x1F53D), (0x1F54B, 0x1F54E), (0x1F550, 0x1F567),
   (0x1F57A, 0x1F57A), (0x1F595, 0x1F596), (0x1F5A4, 0x1F5A4), (0x1F5FB, 0x1F64F),
   (0x1F680, 0x1F6C5), (0x1F6CC, 0x1F6CC), (0x1F6D0, 0x1F6D2), (0x1F6D5, 0x1F6D7),
   (0x1F6DC, 0x1F6DF), (0x1F6EB, 0x1F6EC), (0x1F6F4, 0x1F6FC), (0x1F7E0, 0x1F7EB),
   (0x1F7F0, 0x1F7F0), (0x1F90C, 0x1F93A), (0x1F93C, 0x1F945), (0x1F947, 0x1F9FF),
   (0x1FA70, 0x1FA7C), (0x1FA80, 0x1FA88), (0x1FA90, 0x1FABD), (0x1FABF, 0x1FAC5),
   (0x1FACE, 0x1FADB), (0x1FAE0, 0x1FAE8), (0x1FAF0, 0x1FAF8), (0x20000, 0x2FFFD),
   (0x30000, 0x3FFFD)]

/-- The measure of a terminal. -/
instance Measure.standard : Measure where
  cells c := if wideRanges.has c then 2 else 1
  cells_ellipsis := by decide

/-- The number of cells that a character takes, at least one. -/
def charWidth [Measure] (c : Char) : Nat := (max (Measure.cells c) 1).toNat

theorem charWidth_le_two (c : Char) : charWidth c ≤ 2 := by
  have hcells : Measure.cells c ≤ 2 := by
    unfold Measure.cells Measure.standard
    dsimp only
    split <;> omega
  unfold charWidth
  omega

section
variable [Measure]

theorem one_le_charWidth (c : Char) : 1 ≤ charWidth c := by
  unfold charWidth
  omega

theorem charWidth_ellipsis : charWidth ellipsis = 1 := by
  rw [charWidth, Measure.cells_ellipsis]
  rfl

/-- The number of cells that a list of characters takes. -/
def width : List Char → Nat
  | [] => 0
  | c :: rest => charWidth c + width rest

@[simp] theorem width_nil : width [] = 0 := rfl

@[simp] theorem width_cons (c : Char) (s : List Char) :
    width (c :: s) = charWidth c + width s := rfl

theorem width_append (s t : List Char) : width (s ++ t) = width s + width t := by
  induction s with
  | nil => simp
  | cons c s ih => simp [ih, Nat.add_assoc]

/-- The number of cells that a text takes. -/
def displayWidth (s : String) : Nat := width s.toList

/-! ### Fitting a text into a number of cells -/

/-- The longest beginning of a text that takes at most `room` cells. -/
def takeWidth : Nat → List Char → List Char
  | _, [] => []
  | room, c :: rest =>
    if charWidth c ≤ room then c :: takeWidth (room - charWidth c) rest else []

theorem width_takeWidth_le (room : Nat) (s : List Char) : width (takeWidth room s) ≤ room := by
  induction s generalizing room with
  | nil => simp [takeWidth]
  | cons c rest ih =>
    unfold takeWidth
    split
    · have := ih (room - charWidth c)
      simp only [width_cons]
      omega
    · simp

/-- A text that takes at most `limit` cells: itself if it fits, else its longest beginning that
leaves a cell for the ellipsis, and the ellipsis. -/
def fitText (s : String) (limit : Int) : String :=
  if limit ≤ 0 then ""
  else if displayWidth s ≤ limit then s
  else String.ofList (takeWidth (limit.toNat - 1) s.toList ++ [ellipsis])

end

end Flowchart.Text
