import Flowchart.Number.Basic

/-! # Decimal texts of numbers

Two texts are in use.  The shortest one has the fewest digits that read back as the same
floating-point number, and of those the digits nearest to it (`shortest`).  The general one has six
significant digits of the exact value, without trailing zeros (`general`).  How a list of digits is
laid out, positionally or with an exponent, is one record for each (`Style`). -/

namespace Flowchart.Decimal

/-- Significant digits, read as an integer, and the exponent of the leading one. -/
structure Digits where
  significand : Nat
  exponent : Int
deriving DecidableEq, Repr

/-- The layout of digits: exponents written positionally, and whether a whole number shows a
fraction. -/
structure Style where
  least : Int
  below : Int
  wholeFraction : Bool

/-- Shortest texts are positional from `10 ^ -4` to below `10 ^ 16` and show that a whole number is
floating. -/
def shortestStyle : Style := ⟨-4, 16, true⟩

/-- General texts are positional while six digits reach the units. -/
def generalStyle : Style := ⟨-4, 6, false⟩

/-! ### Layout -/

/-- A significand without its trailing zeros. -/
def dropZeros (digits : List Char) : List Char :=
  match (digits.reverse.dropWhile (· == '0')).reverse with
  | [] => ['0']
  | kept => kept

/-- The exponent with its sign and two digits at least. -/
def exponentText (e : Int) : String :=
  let digits := toString e.natAbs
  (if e < 0 then "e-" else "e+") ++ (if digits.length < 2 then "0" ++ digits else digits)

/-- Digits `d₁ d₂ …` after a point that stands `e` places to the right of the first one. -/
def positional (style : Style) (digits : List Char) (e : Int) : String :=
  if e < 0 then
    "0." ++ String.ofList (List.replicate (e.natAbs - 1) '0' ++ digits)
  else
    let places := e.toNat + 1
    let whole := digits.take places ++ List.replicate (places - digits.length) '0'
    match digits.drop places with
    | [] => String.ofList whole ++ (if style.wholeFraction then ".0" else "")
    | fraction => String.ofList whole ++ "." ++ String.ofList fraction

/-- Digits with one place before the point and an exponent. -/
def scientific (digits : List Char) (e : Int) : String :=
  match digits with
  | [] => "0"
  | [d] => d.toString ++ exponentText e
  | d :: fraction => d.toString ++ "." ++ String.ofList fraction ++ exponentText e

/-- Lays digits out in a style. -/
def Digits.layout (style : Style) (d : Digits) : String :=
  let digits := dropZeros (Nat.toDigits 10 d.significand)
  if style.least ≤ d.exponent ∧ d.exponent < style.below then positional style digits d.exponent
  else scientific digits d.exponent

/-! ### Choosing the digits -/

/-- Digits of a count from an integer `c` on the grid of `10 ^ unit`. -/
def Digits.ofGrid (c : Int) (unit : Int) : Digits :=
  ⟨c.natAbs, unit + digitCount 10 c.natAbs - 1⟩

/-- The points of the grid `10 ^ unit` next to a positive value that read back as it, the nearer one
first of two. -/
def readingBack (q : Rat) (unit : Int) : Option Int :=
  let grid : Rat := (10 : Rat) ^ unit
  let scaled := q / grid
  let below := scaled.floor
  let same (c : Int) : Bool := Binary64.round (c * grid) == .finite q
  let nearest := roundHalfEven scaled
  let other := if nearest = below then below + 1 else below
  if same nearest then some nearest else if same other then some other else none

/-- The fewest digits that read back as a positive value of the floating format; seventeen always
do. -/
def shortestDigits (q : Rat) : Digits :=
  let lead := leadingExponent 10 q
  let counts := (List.range 17).map fun (n : Nat) => lead - (n : Int)
  match counts.findSome? fun unit => (readingBack q unit).map fun c => (c, unit) with
  | some (c, unit) => .ofGrid c unit
  | none => .ofGrid (roundHalfEven (q / (10 : Rat) ^ (lead - 16))) (lead - 16)

/-- Six significant digits of a positive value, a tie going to the even digit. -/
def sixDigits (q : Rat) : Digits :=
  let unit := leadingExponent 10 q - 5
  .ofGrid (roundHalfEven (q / (10 : Rat) ^ unit)) unit

/-! ### Texts -/

/-- A signed text from the text of the magnitude. -/
def signed (negative : Bool) (magnitude : String) : String :=
  if negative then "-" ++ magnitude else magnitude

/-- The text of a floating-point number, given the texts of zero and of positive values. -/
def text (zeroText : String) (positive : Rat → String) : Binary64 → String
  | .nan => "nan"
  | .infinite negative => signed negative "inf"
  | .negativeZero => signed true zeroText
  | .finite q => if q = 0 then zeroText else signed (q < 0) (positive q.abs)

/-- The shortest text that reads back as the same floating-point number. -/
def shortest : Binary64 → String :=
  text "0.0" fun q => (shortestDigits q).layout shortestStyle

/-- The text with six significant digits. -/
def general : Binary64 → String :=
  text "0" fun q => (sixDigits q).layout generalStyle

end Flowchart.Decimal

namespace Flowchart.Number

/-- The text of a number: an integer by its digits, a floating one by the fewest that read back. -/
def text : Number → String
  | int n => toString n
  | real x => Decimal.shortest x

/-- The text of a number with six significant digits. -/
def generalText (x : Number) : Except ArithmeticError String := Decimal.general <$> x.toReal

end Flowchart.Number
