import Flowchart.Number.Binary64

/-! # Numbers of a drawing

A coordinate is an unbounded integer or a binary floating-point number, and it keeps its sort: the
sum of two integers is an integer, and any floating operand makes the result floating.  Order and
equality compare the exact values across the two sorts.  The only steps that can fail are the ones
that leave the range of the floating format or ask it for an integer it does not hold. -/

namespace Flowchart

/-- An integer or a binary floating-point number. -/
inductive Number
  | int (value : Int)
  | real (value : Binary64)
deriving DecidableEq, Repr

/-- The ways in which arithmetic fails. -/
inductive ArithmeticError
  | integerTooLarge
  | quotientTooLarge
  | infinityToInteger
  | nanToInteger
  | divisionByZero (real : Bool)
deriving DecidableEq, Repr

def ArithmeticError.message : ArithmeticError → String
  | integerTooLarge => "int too large to convert to float"
  | quotientTooLarge => "integer division result too large for a float"
  | infinityToInteger => "cannot convert float infinity to integer"
  | nanToInteger => "cannot convert float NaN to integer"
  | divisionByZero false => "integer division or modulo by zero"
  | divisionByZero true => "float floor division by zero"

namespace Number

instance : OfNat Number n := ⟨int n⟩

instance : Coe Int Number := ⟨int⟩

instance : Inhabited Number := ⟨0⟩

/-! ### Arithmetic -/

/-- The floating-point number of a number. -/
def toReal : Number → Except ArithmeticError Binary64
  | real x => .ok x
  | int n =>
    match Binary64.round n with
    | .infinite _ => .error .integerTooLarge
    | x => .ok x

/-- An operation on both sorts: exact on two integers, in the floating format otherwise. -/
def lift (onInt : Int → Int → Int) (onReal : Binary64 → Binary64 → Binary64) :
    Number → Number → Except ArithmeticError Number
  | int m, int n => .ok (int (onInt m n))
  | x, y => do return real (onReal (← x.toReal) (← y.toReal))

def add : Number → Number → Except ArithmeticError Number := lift (· + ·) Binary64.add

def sub : Number → Number → Except ArithmeticError Number := lift (· - ·) Binary64.sub

def mul : Number → Number → Except ArithmeticError Number := lift (· * ·) Binary64.mul

/-- Half of a number, always floating. -/
def half : Number → Except ArithmeticError Number
  | real x => .ok (real x.half)
  | int n =>
    match Binary64.round (n / 2 : Rat) with
    | .infinite _ => .error .quotientTooLarge
    | x => .ok (real x)

/-- The quotient rounded down. -/
def floorDiv : Number → Number → Except ArithmeticError Number
  | int m, int n => if n = 0 then .error (.divisionByZero false) else .ok (int (m.fdiv n))
  | x, y => do
    let v ← x.toReal
    let w ← y.toReal
    if w.value? = some 0 then .error (.divisionByZero true) else return real (v.floorDiv w)

/-- The integer part, toward zero. -/
def toInt : Number → Except ArithmeticError Int
  | int n => .ok n
  | real .nan => .error .nanToInteger
  | real (.infinite _) => .error .infinityToInteger
  | real .negativeZero => .ok 0
  | real (.finite q) => .ok (Binary64.truncate q)

/-! ### Order -/

/-- A place on the number line with its two ends. -/
inductive Place
  | bottom
  | at (value : Rat)
  | top
deriving DecidableEq

/-- Place of a number; not-a-number has none. -/
def place? : Number → Option Place
  | int n => some (.at n)
  | real (.finite q) => some (.at q)
  | real .negativeZero => some (.at 0)
  | real (.infinite true) => some .bottom
  | real (.infinite false) => some .top
  | real .nan => none

/-- Strict order of places. -/
def Place.lt : Place → Place → Bool
  | .bottom, .bottom => false
  | .bottom, _ => true
  | .at p, .at q => p < q
  | .at _, .top => true
  | _, _ => false

/-- Strict order by value; not-a-number is below nothing. -/
def lt (x y : Number) : Bool :=
  match x.place?, y.place? with
  | some p, some q => p.lt q
  | _, _ => false

/-- Equality by value; not-a-number equals nothing. -/
def eqv (x y : Number) : Bool :=
  match x.place?, y.place? with
  | some p, some q => p == q
  | _, _ => false

/-- Numbers agree when they are equal by value or both not-a-number. -/
def agrees (x y : Number) : Bool := x.place? == y.place?

/-- Order by value. -/
def le (x y : Number) : Bool := x.lt y || x.eqv y

/-- The smaller of two numbers, the first of equal ones. -/
def min (x y : Number) : Number := if y.lt x then y else x

/-- The larger of two numbers, the first of equal ones. -/
def max (x y : Number) : Number := if x.lt y then y else x

/-- The least of some numbers, the first of equal ones. -/
def least (first : Number) (others : List Number) : Number := others.foldl min first

/-- The greatest of some numbers, the first of equal ones. -/
def greatest (first : Number) (others : List Number) : Number := others.foldl max first

end Number

end Flowchart
