/-! # Binary floating point with 64 bits

A number is a rational value, an infinity, the negative zero or not a number.  Every operation
computes its exact rational result and rounds it once (`Binary64.round`): to the nearest number
with a significand of 53 bits and a last place not below `2 ^ -1074`, a tie going to the even
neighbour, and to infinity from `2 ^ 1024` on.  `finite` holds rounded values only, since the
operations build it through `round`. -/

namespace Flowchart

/-- A number in the 64-bit binary format; `finite 0` is the positive zero. -/
inductive Binary64
  | finite (value : Rat)
  | negativeZero
  | infinite (negative : Bool)
  | nan
deriving DecidableEq, Repr

/-- The integer nearest to a rational, the even one of two. -/
def roundHalfEven (q : Rat) : Int :=
  let below := q.floor
  let part := q - below
  if part < 1 / 2 then below
  else if 1 / 2 < part then below + 1
  else if below % 2 == 0 then below
  else below + 1

/-- The number of digits of a natural number in a base, at least one. -/
def digitCount (base n : Nat) : Nat := (Nat.toDigits base n).length

/-- The exponent `e` with `base ^ e ≤ |q| < base ^ (e + 1)`, for `q` not zero: the digit counts of
numerator and denominator leave two candidates. -/
def leadingExponent (base : Nat) (q : Rat) : Int :=
  let upper : Int := digitCount base q.num.natAbs - digitCount base q.den
  if (base : Rat) ^ upper ≤ q.abs then upper else upper - 1

namespace Binary64

def precision : Int := 53

/-- The exponent of the last place of the smallest numbers. -/
def minExponent : Int := -1074

/-- The exponent from which on values are infinite. -/
def overflowExponent : Int := 1024

def zero : Binary64 := finite 0

def signedZero (negative : Bool) : Binary64 := if negative then negativeZero else zero

/-- The exponent of the last place of a number near `q`. -/
def placeExponent (q : Rat) : Int := max (leadingExponent 2 q - (precision - 1)) minExponent

/-- The number nearest to a rational. -/
def round (q : Rat) : Binary64 :=
  if q = 0 then zero
  else
    let place : Rat := (2 : Rat) ^ placeExponent q
    let value := roundHalfEven (q / place) * place
    if (2 : Rat) ^ overflowExponent ≤ value.abs then infinite (q < 0)
    else if value = 0 then signedZero (q < 0)
    else finite value

/-- The number written as `digits * 10 ^ exponent`; exponents far outside the format are settled by
the size of the number. -/
def ofDecimal (negative : Bool) (digits : Nat) (exponent : Int) : Binary64 :=
  if digits = 0 then signedZero negative
  else
    let magnitude := exponent + digitCount 10 digits
    if 400 < magnitude then infinite negative
    else if magnitude < -400 then signedZero negative
    else
      let q : Rat := digits * (10 : Rat) ^ exponent
      round (if negative then -q else q)

/-! ### Views -/

def value? : Binary64 → Option Rat
  | finite q => some q
  | negativeZero => some 0
  | _ => none

/-- The sign bit, taken as positive where there is none to see. -/
def isNegative : Binary64 → Bool
  | finite q => q < 0
  | negativeZero => true
  | infinite negative => negative
  | nan => false

/-! ### Arithmetic -/

def neg : Binary64 → Binary64
  | finite q => if q = 0 then negativeZero else finite (-q)
  | negativeZero => zero
  | infinite negative => infinite (!negative)
  | nan => nan

/-- Sum; two negative zeros give a negative zero and opposite infinities no number. -/
def add : Binary64 → Binary64 → Binary64
  | nan, _ => nan
  | _, nan => nan
  | infinite s, infinite t => if s == t then infinite s else nan
  | infinite s, _ => infinite s
  | _, infinite t => infinite t
  | negativeZero, negativeZero => negativeZero
  | finite p, finite q => round (p + q)
  | finite p, negativeZero => finite p
  | negativeZero, finite q => finite q

def sub (x y : Binary64) : Binary64 := add x (neg y)

/-- Product; a zero result carries the product of the signs. -/
def mul (x y : Binary64) : Binary64 :=
  let negative := x.isNegative != y.isNegative
  match x, y with
  | nan, _ => nan
  | _, nan => nan
  | infinite _, infinite _ => infinite negative
  | infinite _, y => if y.value? = some 0 then nan else infinite negative
  | x, infinite _ => if x.value? = some 0 then nan else infinite negative
  | x, y =>
    let product := x.value?.getD 0 * y.value?.getD 0
    if product = 0 then signedZero negative else round product

def half : Binary64 → Binary64
  | finite q => round (q / 2)
  | x => x

/-- The integer part of a rational, toward zero. -/
def truncate (q : Rat) : Int := if q < 0 then q.ceil else q.floor

/-- The floor of a quotient `d` that was rounded to the format: one more when the rounding has
brought it above the middle. -/
def floorQuotient (d : Rat) : Rat :=
  let below : Rat := d.floor
  if 1 / 2 < d - below then below + 1 else below

/-- The quotient of two rationals rounded down, computed from the remainder of the truncated
division; `v` and `w` are values of the format and `w` is not zero. -/
def floorDivRat (v w : Rat) : Binary64 :=
  let remainder := v - w * truncate (v / w)
  let quotient := match round (v - remainder) with
    | finite q => round (q / w)
    | x => x
  let adjusted :=
    if remainder ≠ 0 ∧ (w < 0) ≠ (remainder < 0) then sub quotient (finite 1) else quotient
  match adjusted with
  | finite d => if d = 0 then signedZero ((v < 0) != (w < 0)) else finite (floorQuotient d)
  | negativeZero => signedZero ((v < 0) != (w < 0))
  | x => x

/-- The quotient rounded down, for a divisor other than zero. -/
def floorDiv : Binary64 → Binary64 → Binary64
  | nan, _ => nan
  | _, nan => nan
  | infinite _, _ => nan
  | x, infinite t =>
    if x.value? = some 0 ∨ x.isNegative = t then signedZero (x.isNegative != t) else finite (-1)
  | x, y =>
    match x.value?.getD 0, y.value?.getD 0 with
    | v, w => if v = 0 then signedZero (x.isNegative != y.isNegative) else floorDivRat v w

end Binary64

end Flowchart
