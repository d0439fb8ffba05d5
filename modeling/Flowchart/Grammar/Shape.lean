import Flowchart.Diagram.Basic
import Flowchart.Grammar.Scan
import Flowchart.Sorting

/-! # Declarations of nodes

A shape rule finds declarations on a line by a pattern of any kind and gives them its shape; of all
that the rules find, `declarations` keeps the leftmost ones that do not overlap, at one column that
of the earlier rule.  A bracket rule is a shape rule (`ShapeRule.ofBracket`): it finds, from left to
right without overlap, identifiers directly followed by a label in an enclosure, such as `a[text]`.
The label holds anything but the last character of the closing. -/

namespace Flowchart.Grammar

/-- What stands around a label; the closing is not empty. -/
structure Enclosure where
  opening : List Char
  closing : List Char
  closing_ne_nil : closing ≠ []

namespace Enclosure

/-- The character that a label inside may not hold. -/
def stop (e : Enclosure) : Char := e.closing.getLast e.closing_ne_nil

/-- The enclosure between two texts, unless the closing is empty. -/
def ofTexts? (opening closing : String) : Option Enclosure :=
  if h : closing.toList ≠ [] then some ⟨opening.toList, closing.toList, h⟩ else none

/-- What stands before the first stop in the closing. -/
def lead (e : Enclosure) : List Char := e.closing.takeWhile (· != e.stop)

/-- The label that some characters start with, if a closing follows it: since it holds no stop, the
first stop is the one that the closing holds first. -/
def label (e : Enclosure) (s : List Char) : List Char :=
  let run := s.takeWhile (· != e.stop)
  run.take (run.length - e.lead.length)

/-- Reads an enclosed label. -/
def read {α : Type} (e : Enclosure) (next : List Char → List Char → Option α) (s : List Char) :
    Option α :=
  (after? e.opening s).bind fun inner =>
    (after? e.closing (inner.drop (e.label inner).length)).bind fun rest =>
      next (e.label inner) rest

/-- A label in its enclosure. -/
def wrap (e : Enclosure) (body : List Char) : List Char := e.opening ++ body ++ e.closing

end Enclosure

/-- The shape that an enclosure gives to a node. -/
structure BracketRule where
  enclosure : Enclosure
  shape : Shape

namespace BracketRule

/-- Brackets. -/
def rectangle : BracketRule := ⟨⟨['['], [']'], by simp⟩, .rectangle⟩

/-- Braces. -/
def diamond : BracketRule := ⟨⟨['\x7b'], ['\x7d'], by simp⟩, .diamond⟩

/-- Double parentheses. -/
def ellipse : BracketRule := ⟨⟨['(', '('], [')', ')'], by simp⟩, .ellipse⟩

/-- Single parentheses. -/
def rounded : BracketRule := ⟨⟨['('], [')'], by simp⟩, .rounded⟩

/-- The brackets of the language; at one column the earlier rule wins. -/
def standard : List BracketRule := [rectangle, diamond, ellipse, rounded]

end BracketRule

/-! ### Labels -/

/-- The quotes that may stand around a whole label. -/
def isQuote (c : Char) : Bool := c == '\x22' || c == '\x27'

/-- A label without a pair of equal quotes around it. -/
def unquote (label : List Char) : List Char :=
  match label with
  | [] => []
  | first :: rest =>
    if rest.getLast? = some first ∧ isQuote first then Text.trim rest.dropLast else label

/-- A label as a node or edge shows it: trimmed, and trimmed again inside quotes. -/
def cleanLabel (raw : List Char) : String := String.ofList (unquote (Text.trim raw))

/-! ### Declarations -/

/-- What a pattern finds on a line, from its column up to, and not with, `stop`: an id, and a label
as it is written. -/
structure Finding where
  column : Nat
  stop : Nat
  id : String
  label : List Char
  column_le_stop : column ≤ stop

/-- A rule for declarations: what its pattern finds on a line, from left to right, and the shape
that it gives. -/
structure ShapeRule where
  find : List Char → List Finding
  shape : Shape

/-- A declaration on a line, from its column up to, and not with, `stop`. -/
structure Declaration where
  column : Nat
  stop : Nat
  id : String
  label : String
  shape : Shape
deriving DecidableEq, Repr

def Finding.declaration (f : Finding) (shape : Shape) : Declaration :=
  ⟨f.column, f.stop, f.id, cleanLabel f.label, shape⟩

/-- The declarations of a rule on a line. -/
def ShapeRule.occurrences (rule : ShapeRule) (line : List Char) : List Declaration :=
  (rule.find line).map fun f => f.declaration rule.shape

/-! ### Declarations in brackets -/

namespace BracketRule

/-- The identifier and the label of a declaration at the start of some characters. -/
def read? (rule : BracketRule) (s : List Char) : Option (List Char × List Char) :=
  s |> readId fun rest => rest |> rule.enclosure.read fun body _ => some (upTo s rest, body)

/-- The length of a declaration. -/
def span (rule : BracketRule) (id body : List Char) : Nat :=
  id.length + (rule.enclosure.wrap body).length

/-- What a rule finds from a column on.  `inside` says whether an identifier character stands before
the column, where nothing can start, and `covered` how many characters still belong to what was
found last. -/
def findFrom (rule : BracketRule) (column : Nat) (inside : Bool) (covered : Nat) :
    List Char → List Finding
  | [] => []
  | c :: rest =>
    match if covered = 0 ∧ inside = false then rule.read? (c :: rest) else none with
    | some (id, body) =>
      let length := rule.span id body
      ⟨column, column + length, String.ofList id, body, Nat.le_add_right _ _⟩ ::
        findFrom rule (column + 1) (isIdChar c) (length - 1) rest
    | none => findFrom rule (column + 1) (isIdChar c) (covered - 1) rest

end BracketRule

namespace ShapeRule

/-- A bracket rule finds its declarations from left to right without overlap. -/
def ofBracket (rule : BracketRule) : ShapeRule := ⟨rule.findFrom 0 false 0, rule.shape⟩

/-- The rules of the language. -/
abbrev standard : List ShapeRule := BracketRule.standard.map ofBracket

end ShapeRule

/-! ### The declarations of a line -/

/-- Columns from the first up to, and not with, the second. -/
abbrev Span := Nat × Nat

/-- A column lies in an optional span. -/
def covers (span : Option Span) (column : Nat) : Bool :=
  match span with
  | none => false
  | some (first, stop) => first ≤ column && column < stop

/-- The declarations of all rules that do not start in a span, in the order of their columns; at
one column that of the earlier rule comes first. -/
def candidates (rules : List ShapeRule) (excluded : Option Span) (line : List Char) :
    List Declaration :=
  sortBy (fun d e => d.column ≤ e.column)
    ((rules.flatMap fun rule => rule.occurrences line).filter fun d => !covers excluded d.column)

/-- Of declarations in the order of their columns, those that start at `free` or later and do not
overlap one that was kept. -/
def keepApart (free : Nat) : List Declaration → List Declaration
  | [] => []
  | d :: rest => if d.column < free then keepApart free rest else d :: keepApart d.stop rest

def declarations (rules : List ShapeRule) (excluded : Option Span) (line : List Char) :
    List Declaration :=
  keepApart 0 (candidates rules excluded line)

end Flowchart.Grammar
