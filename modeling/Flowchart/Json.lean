import Flowchart.Number.Decimal
import Flowchart.Text.Numeral
import Flowchart.Text.Quoted

/-! # JSON values

Records of elements, server answers and settings are JSON values.  The members of an object keep
their order and integers stay apart from floating-point numbers.

The compact form stands on one line and is ASCII (`Json.compact`); it is the body of a request.
The pretty form is indented by two spaces a level and keeps other characters (`Json.pretty`); it is
what a listing shows.

A message shows the display text of a value (`Json.display`): a string as it is, and quoted inside
an array or object.  Null and the truth values are shown as `None`, `True` and `False`. -/

namespace Flowchart

/-- A JSON value; the keys of an object are distinct. -/
inductive Json
  | null
  | bool (value : Bool)
  | number (value : Number)
  | string (value : String)
  | array (items : List Json)
  | object (members : List (String × Json))

namespace Json

instance : Inhabited Json := ⟨null⟩

def get? (key : String) (members : List (String × Json)) : Option Json := members.lookup key

/-- A text, or null if there is none. -/
def ofText? : Option String → Json
  | none => null
  | some s => string s

def ofInt (n : Int) : Json := number (.int n)

/-- A value counts as true unless it is null, false, zero or empty. -/
def isTruthy : Json → Bool
  | null => false
  | bool b => b
  | number x => !x.eqv 0
  | string s => s != ""
  | array items => !items.isEmpty
  | object members => !members.isEmpty

/-! ### Strings and numbers as they are written -/

/-- The escapes of the controls that have a letter, of the quote and of the backslash. -/
def letterEscape? (c : Char) : Option String :=
  match c.toNat with
  | 0x08 => some "\\b"
  | 0x09 => some "\\t"
  | 0x0A => some "\\n"
  | 0x0C => some "\\f"
  | 0x0D => some "\\r"
  | 0x22 => some "\\\""
  | 0x5C => some "\\\\"
  | _ => none

/-- A code of sixteen bits. -/
def unitEscape (n : Nat) : String := "\\u" ++ Text.hex 4 n

/-- A character above the sixteen-bit codes as a pair of surrogates. -/
def surrogatePair (n : Nat) : String :=
  unitEscape (0xD800 + (n - 0x10000) / 0x400) ++ unitEscape (0xDC00 + (n - 0x10000) % 0x400)

/-- A character in a string; outside printable ASCII it is kept or written by its code. -/
def charText (ascii : Bool) (c : Char) : String :=
  match letterEscape? c with
  | some escape => escape
  | none =>
    if c.toNat < 0x20 then unitEscape c.toNat
    else if !ascii || c.toNat < 0x7F then c.toString
    else if c.toNat < 0x10000 then unitEscape c.toNat
    else surrogatePair c.toNat

/-- A string in double quotes. -/
def stringText (ascii : Bool) (s : String) : String :=
  "\"" ++ String.join (s.toList.map (charText ascii)) ++ "\""

/-- A number; the three values without digits have names. -/
def numberText : Number → String
  | .real .nan => "NaN"
  | .real (.infinite negative) => if negative then "-Infinity" else "Infinity"
  | x => x.text

/-! ### What can be printed -/

/-- A number can be printed unless it is an integer of too many digits. -/
def numberPrints : Number → Bool
  | .int n => n.natAbs < Nat.pow 10 Text.maxNumeralDigits
  | .real _ => true

mutual

/-- Every number in the value can be printed. -/
def prints : Json → Bool
  | number x => numberPrints x
  | array items => itemsPrint items
  | object members => membersPrint members
  | _ => true

/-- Every item of an array can be printed. -/
def itemsPrint : List Json → Bool
  | [] => true
  | item :: rest => prints item && itemsPrint rest

/-- Every member of an object can be printed. -/
def membersPrint : List (String × Json) → Bool
  | [] => true
  | (_, value) :: rest => prints value && membersPrint rest

end

/-! ### Compact form -/

mutual

/-- The value on one line, in ASCII. -/
def compact : Json → String
  | null => "null"
  | bool b => if b then "true" else "false"
  | number x => numberText x
  | string s => stringText true s
  | array items => "[" ++ ", ".intercalate (compactItems items) ++ "]"
  | object members => "\x7b" ++ ", ".intercalate (compactMembers members) ++ "\x7d"

def compactItems : List Json → List String
  | [] => []
  | item :: rest => compact item :: compactItems rest

def compactMembers : List (String × Json) → List String
  | [] => []
  | (key, value) :: rest => (stringText true key ++ ": " ++ compact value) :: compactMembers rest

end

/-! ### Pretty form -/

/-- The start of a line at a depth. -/
def newline (depth : Nat) : String := "\n" ++ String.ofList (List.replicate (2 * depth) ' ')

/-- The parts of an array or object on lines of their own. -/
def block (opening closing : String) (depth : Nat) : List String → String
  | [] => opening ++ closing
  | parts => opening ++ newline (depth + 1) ++ ("," ++ newline (depth + 1)).intercalate parts ++
      newline depth ++ closing

mutual

/-- The value at a depth of indentation. -/
def prettyAt (depth : Nat) : Json → String
  | null => "null"
  | bool b => if b then "true" else "false"
  | number x => numberText x
  | string s => stringText false s
  | array items => block "[" "]" depth (prettyItems (depth + 1) items)
  | object members => block "\x7b" "\x7d" depth (prettyMembers (depth + 1) members)

def prettyItems (depth : Nat) : List Json → List String
  | [] => []
  | item :: rest => prettyAt depth item :: prettyItems depth rest

def prettyMembers (depth : Nat) : List (String × Json) → List String
  | [] => []
  | (key, value) :: rest =>
    (stringText false key ++ ": " ++ prettyAt depth value) :: prettyMembers depth rest

end

/-- The value on indented lines. -/
def pretty (value : Json) : String := prettyAt 0 value

/-! ### Display texts -/

mutual

/-- The text of a value inside another one. -/
def displayItem : Json → String
  | null => "None"
  | bool b => if b then "True" else "False"
  | number x => x.text
  | string s => Text.quoted s
  | array items => "[" ++ ", ".intercalate (displayItems items) ++ "]"
  | object members => "\x7b" ++ ", ".intercalate (displayMembers members) ++ "\x7d"

def displayItems : List Json → List String
  | [] => []
  | item :: rest => displayItem item :: displayItems rest

def displayMembers : List (String × Json) → List String
  | [] => []
  | (key, value) :: rest => (Text.quoted key ++ ": " ++ displayItem value) :: displayMembers rest

end

/-- The text that a message shows for a value. -/
def display : Json → String
  | string s => s
  | value => displayItem value

end Json

end Flowchart
