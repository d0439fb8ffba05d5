import Flowchart.Text.Blank

/-! # Integer numerals

An integer is written with an optional sign and decimal digits of any script, a single underscore
allowed between two digits, and blanks around it.  `readInteger` reads such a numeral and says what
is wrong with any other text; the digits are counted before what follows them is looked at. -/

namespace Flowchart.Text

/-- The zeros of the scripts; the nine digits that follow a zero stand right behind it. -/
def decimalZeros : List Nat :=
  [0x30, 0x660, 0x6F0, 0x7C0, 0x966, 0x9E6, 0xA66, 0xAE6, 0xB66, 0xBE6, 0xC66, 0xCE6, 0xD66,
   0xDE6, 0xE50, 0xED0, 0xF20, 0x1040, 0x1090, 0x17E0, 0x1810, 0x1946, 0x19D0, 0x1A80, 0x1A90,
   0x1B50, 0x1BB0, 0x1C40, 0x1C50, 0xA620, 0xA8D0, 0xA900, 0xA9D0, 0xA9F0, 0xAA50, 0xABF0, 0xFF10,
   0x104A0, 0x10D30, 0x11066, 0x110F0, 0x11136, 0x111D0, 0x112F0, 0x11450, 0x114D0, 0x11650,
   0x116C0, 0x11730, 0x118E0, 0x11950, 0x11C50, 0x11D50, 0x11DA0, 0x16A60, 0x16AC0, 0x16B50,
   0x1D7CE, 0x1D7D8, 0x1D7E2, 0x1D7EC, 0x1D7F6, 0x1E140, 0x1E2F0, 0x1E950, 0x1FBF0]

def digitValue? (c : Char) : Option Nat :=
  (decimalZeros.find? fun first => first ≤ c.toNat && c.toNat < first + 10).map (c.toNat - ·)

inductive NumeralFault
  | malformed
  | tooLong (digits : Nat)
deriving DecidableEq, Repr

def maxNumeralDigits : Nat := 4300

/-- The blanks that may stand around a numeral; the information separators may not. -/
def isNumeralBlank (c : Char) : Bool := isBlank c && !(0x1C ≤ c.toNat && c.toNat ≤ 0x1F)

/-- The digits of a numeral without its sign: digits, one underscore between two of them at most. -/
def readDigits : List Char → Option (List Nat)
  | [] => none
  | [c] => (digitValue? c).map fun d => [d]
  | c :: '_' :: rest => do
    let d ← digitValue? c
    return d :: (← readDigits rest)
  | c :: rest => do
    let d ← digitValue? c
    return d :: (← readDigits rest)

/-- The number that decimal digits stand for, the highest digit first. -/
def ofDigits (digits : List Nat) : Nat := digits.foldl (fun n d => 10 * n + d) 0

def splitSign : List Char → Bool × List Char
  | '-' :: rest => (true, rest)
  | '+' :: rest => (false, rest)
  | s => (false, s)

/-- A character that the run of digits may hold. -/
def isNumeralChar (c : Char) : Bool := (digitValue? c).isSome || c == '_'

def readInteger (s : String) : Except NumeralFault Int :=
  let (negative, unsigned) := splitSign (s.toList.dropWhile isNumeralBlank)
  match readDigits (unsigned.takeWhile isNumeralChar) with
  | none => .error .malformed
  | some digits =>
    if digits.length > maxNumeralDigits then .error (.tooLong digits.length)
    else if !(unsigned.dropWhile isNumeralChar).all isNumeralBlank then .error .malformed
    else .ok (if negative then -(ofDigits digits : Int) else ofDigits digits)

end Flowchart.Text
