import Flowchart.Diagram.Basic
import Flowchart.Text.Blank

/-! # Source of a diagram

The content lines of a text are its lines, trimmed, without the blank ones and the comments
(`contentLines`).  A first line that starts with a diagram keyword is the header; it names the kind
and, for a flowchart, the direction.  Any other first line is content. -/

namespace Flowchart

def commentMark : String := "%%"

/-- A line carries content if it is neither blank nor a comment; the line is trimmed. -/
def isContent (line : List Char) : Bool := !line.isEmpty && !commentMark.toList.isPrefixOf line

/-- The content lines of a text, trimmed. -/
def contentLines (text : String) : List String :=
  (((Text.splitLines text.toList).map Text.trim).filter isContent).map String.ofList

/-! ### Header -/

/-- The keywords of headers; the keyword of a state diagram may go on with a version. -/
def kindKeywords : List (String × DiagramKind) :=
  [("graph", .flowchart), ("flowchart", .flowchart), ("sequenceDiagram", .sequence),
   ("classDiagram", .classes), ("stateDiagram", .state), ("gantt", .gantt)]

/-- The kind whose keyword a line starts with. -/
def DiagramKind.ofLine (line : String) : DiagramKind :=
  match kindKeywords.find? fun entry => entry.1.toList.isPrefixOf line.toList with
  | some (_, kind) => kind
  | none => .unknown

/-- The direction that a word names in any case of its letters; other words leave it at the top.
Letters outside ASCII never turn a word into a name. -/
def Direction.ofToken (token : String) : Direction :=
  match String.ofList (Text.trim (token.toList.map Char.toUpper)) with
  | "BT" => .bottomTop
  | "LR" => .leftRight
  | "RL" => .rightLeft
  | _ => .topBottom

/-- The direction that the second word of a header names; semicolons may end the header and the
word. -/
def Direction.ofHeader (header : String) : Direction :=
  let isMark (c : Char) : Bool := c == ';'
  let word := Text.secondWord (Text.dropEndWhile isMark header.toList)
  .ofToken (String.ofList (Text.dropEndWhile isMark word))

/-! ### Source -/

/-- The lines of a diagram after its header. -/
structure Source where
  kind : DiagramKind
  lines : List String
  header : Option String
  direction : Direction
deriving DecidableEq, Repr

/-- The ways in which a text is no diagram. -/
inductive ParseError
  | emptyText
  | noNodes
deriving DecidableEq, Repr

def ParseError.message : ParseError → String
  | emptyText => "Diagram text is empty: no content lines after removing blanks and comments."
  | noNodes => "No nodes found in diagram text."

/-- The source made of content lines. -/
def Source.ofLines : List String → Except ParseError Source
  | [] => .error .emptyText
  | first :: rest =>
    match DiagramKind.ofLine first with
    | .unknown => .ok ⟨.unknown, first :: rest, none, .topBottom⟩
    | .flowchart => .ok ⟨.flowchart, rest, some first, .ofHeader first⟩
    | kind => .ok ⟨kind, rest, some first, .topBottom⟩

def Source.ofText (text : String) : Except ParseError Source :=
  Source.ofLines (contentLines text)

end Flowchart
