import Flowchart.Literal.Grammar

/-! # Values of literals

A literal is an expression that stands for a value without any names: a number, a text, a word for a
value, a tuple, a set or a table of literals, a number with a sign, or a sum of a real and an
imaginary number.  Sets and tables cannot be members of a set or keys of a table. -/

namespace Flowchart.Literal

/-- Why an expression has no value. -/
inductive ValueFault
  | notLiteral
  | nothing
  | unhashable (type : String)
deriving DecidableEq, Repr

def ValueFault.message : ValueFault → String
  | notLiteral => "malformed node or string on line 1"
  | nothing => "malformed node or string: None"
  | unhashable type => "unhashable type: '" ++ type ++ "'"

namespace Tree

/-- A number without a sign, real or imaginary. -/
def isNumber (imaginary : Bool) (t : Tree) : Bool := t.label == .number imaginary

/-- A real number with a sign or without. -/
def isSignedReal : Tree → Bool
  | node .sign [t] => t.isNumber false
  | t => t.isNumber false

/-- A value that may be a member of a set or a key of a table. -/
def needKey : Option String → Except ValueFault Unit
  | none => .ok ()
  | some type => .error (.unhashable type)

mutual

/-- The value of an expression: the type that keeps it from being a key, if any. -/
def value : Tree → Except ValueFault (Option String)
  | node (.number _) _ | node (.text _) _ | node (.kind (.truth _)) _
  | node (.kind .ellipsis) _ => .ok none
  | node .sign [t] => if t.isNumber false || t.isNumber true then .ok none else .error .notLiteral
  | node .sum [t, u] =>
    if t.isSignedReal && u.isNumber true then .ok none else .error .notLiteral
  | node (.kind .tuple) ts => tupleValue ts
  | node (.kind .set) ts => setValue ts
  | node (.kind .table) ts => tableValue ts
  | node (.kind .call) [node (.name "set") _] => .ok (some "set")
  | _ => .error .notLiteral

def tupleValue : List Tree → Except ValueFault (Option String)
  | [] => .ok none
  | t :: ts => do
    let first ← value t
    return first.or (← tupleValue ts)

def setValue : List Tree → Except ValueFault (Option String)
  | [] => .ok (some "set")
  | t :: ts => do
    needKey (← value t)
    setValue ts

def tableValue : List Tree → Except ValueFault (Option String)
  | [] => .ok (some "dict")
  | node .entry [k, v] :: ts => do
    let key ← value k
    let _ ← value v
    needKey key
    tableValue ts
  | _ :: _ => .error .nothing

end

end Tree

/-- Why a text is no literal. -/
inductive LiteralFault
  | expression (f : Fault)
  | value (f : ValueFault)
deriving DecidableEq, Repr

def readLiteral (s : List Char) : Except LiteralFault Unit := do
  let found ← (readExpression s).mapError .expression
  for t in found do
    let _ ← t.value.mapError .value

end Flowchart.Literal
