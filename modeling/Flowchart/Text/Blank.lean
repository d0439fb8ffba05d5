/-! # Blanks, words and lines

Blanks separate words and are trimmed from the ends of lines and labels.  The set is the Unicode
white space together with the four information separators; it is kept, as other sets that a standard
lists by code point, as a list of inclusive ranges (`CodeRanges`).

A text is cut into lines at ten line breaks, among them the pair of carriage return and line feed.
A break ends the line before it, so a text that ends with a break has no empty line after it.

All functions work on character lists, so that `trimStart` and `trimEnd` are the library's
`dropWhile` from one end or the other. -/

namespace Flowchart.Text

/-! ### Sets of characters -/

/-- Inclusive ranges of code points. -/
abbrev CodeRanges := List (Nat × Nat)

/-- A character is in the set when its code lies in one of the ranges. -/
def CodeRanges.has (ranges : CodeRanges) (c : Char) : Bool :=
  ranges.any fun range => range.1 ≤ c.toNat && c.toNat ≤ range.2

def blankRanges : CodeRanges :=
  [(0x09, 0x0D), (0x1C, 0x20), (0x85, 0x85), (0xA0, 0xA0), (0x1680, 0x1680), (0x2000, 0x200A),
   (0x2028, 0x2029), (0x202F, 0x202F), (0x205F, 0x205F), (0x3000, 0x3000)]

/-- Blank characters separate words. -/
def isBlank (c : Char) : Bool := blankRanges.has c

/-! ### Trimming -/

/-- Drops the longest run of characters in `p` from the end. -/
def dropEndWhile (p : Char → Bool) (s : List Char) : List Char :=
  (s.reverse.dropWhile p).reverse

def trimStart (s : List Char) : List Char := s.dropWhile isBlank

def trimEnd (s : List Char) : List Char := dropEndWhile isBlank s

/-- Drops blanks from both ends. -/
def trim (s : List Char) : List Char := trimEnd (trimStart s)

/-! ### Words -/

/-- The run of characters before the first blank. -/
def firstWord (s : List Char) : List Char := s.takeWhile fun c => !isBlank c

/-- The second of the words that blanks separate, empty if there is none. -/
def secondWord (s : List Char) : List Char :=
  firstWord (trimStart ((trimStart s).dropWhile fun c => !isBlank c))

/-! ### Lines -/

/-- The characters that end a line. -/
def isLineBreak (c : Char) : Bool :=
  let n := c.toNat
  (0x0A ≤ n && n ≤ 0x0D) || (0x1C ≤ n && n ≤ 0x1E) || n == 0x85 || n == 0x2028 || n == 0x2029

/-- Puts a character in front of the first line. -/
def extendFirst (c : Char) : List (List Char) → List (List Char)
  | [] => [[c]]
  | line :: rest => (c :: line) :: rest

/-- The lines of a text, without their breaks. -/
def splitLines : List Char → List (List Char)
  | [] => []
  | '\r' :: '\n' :: rest => [] :: splitLines rest
  | c :: rest => if isLineBreak c then [] :: splitLines rest else extendFirst c (splitLines rest)

@[simp] theorem splitLines_nil : splitLines [] = [] := by rw [splitLines]

/-! ### The same on strings -/

/-- A text without the blanks at its ends. -/
def trimmed (s : String) : String := String.ofList (trim s.toList)

end Flowchart.Text
