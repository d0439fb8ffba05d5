import Flowchart.Literal.Value
import Flowchart.Markup.Piece
import Flowchart.Markup.StyleName

/-! # Reading marked texts

A group after an even number of backslashes is a tag, after an odd number a literal; in both cases
pairs of backslashes stand for single ones.  In other text a backslash before a bracket is dropped.
A tag opens a style or closes one: `/` alone the last open one, `/` and a name the last open one of
that name.  A name that starts with `@` is that of an event, whose parameters follow an equals sign;
they are read when the event is closed.  Reading gives the text without its tags (`shownText`), or
the first tag that is wrong. -/

namespace Flowchart.Markup

/-- What is wrong with a tag: it closes nothing, its name is a colour with an empty part, or it
closes an event whose parameters have no value. -/
inductive Error
  | nothingToClose (position : Nat)
  | noOpenTag (body : List Char) (position : Nat)
  | emptyColourPart
  | parameters (text given : List Char) (fault : Literal.Fault)
  | parameterValue (given : List Char) (fault : Literal.ValueFault)
deriving DecidableEq, Repr

def quoted (s : List Char) : String := Text.quoted (String.ofList s)

def Error.message : Error → String
  | nothingToClose position =>
    "closing tag '[/]' at position " ++ toString position ++ " has nothing to close"
  | noOpenTag body position =>
    "closing tag '" ++ String.ofList (bracketed body) ++ "' at position " ++ toString position ++
      " doesn't match any open tag"
  | emptyColourPart => "invalid literal for int() with base 10: ''"
  | parameters text given fault =>
    "error parsing " ++ quoted text ++ " in " ++ quoted given ++ "; " ++ fault.message
  | parameterValue given fault => "error parsing " ++ quoted given ++ "; " ++ fault.message

/-! ### Open tags -/

/-- An open tag: the canonical name of a style or an event, and what follows the equals sign. -/
structure OpenTag where
  name : String
  parameters : List Char
deriving DecidableEq, Repr

/-- The name of a tag, before its parameters. -/
def tagName (body : List Char) : List Char := body.takeWhile (· != '=')

def tagParameters (body : List Char) : List Char := body.drop ((tagName body).length + 1)

/-- The canonical name of a style or an event. -/
def canonicalName (name : List Char) : Except Error String :=
  match styleName name with
  | some name => .ok name
  | none => .error .emptyColourPart

/-- Takes the last open tag of a name away and gives it with the others. -/
def closeNamed? (name : String) : List OpenTag → Option (OpenTag × List OpenTag)
  | [] => none
  | tag :: rest =>
    if tag.name = name then some (tag, rest)
    else (closeNamed? name rest).map fun (closed, rest) => (closed, tag :: rest)

/-! ### Events -/

/-- The literal of an event's parameters: what stands in parentheses behind a dotted name, nothing
in parentheses behind a name alone, and otherwise the parameters as they are. -/
def literalText (parameters : List Char) : List Char :=
  let trimmed := Text.trim parameters
  match trimmed.dropWhile fun c => Text.isWordChar c || c == '.' with
  | [] => ['(', ')']
  | '(' :: c :: rest => if (c :: rest).getLast? = some ')' then '(' :: c :: rest else trimmed
  | _ => trimmed

/-- Reads the parameters of an event that is closed. -/
def OpenTag.check (tag : OpenTag) : Except Error Unit :=
  if tag.name.startsWith "@" && !tag.parameters.isEmpty then
    let text := literalText tag.parameters
    (Literal.readLiteral text).mapError fun
      | .expression fault => .parameters text tag.parameters fault
      | .value fault => .parameterValue tag.parameters fault
  else .ok ()

/-! ### Reading -/

/-- The open tags, the last one first, after a tag at a position. -/
def applyTag (body : List Char) (position : Nat) (opened : List OpenTag) :
    Except Error (List OpenTag) :=
  match tagName body with
  | '/' :: name =>
    match Text.trim name with
    | [] => match opened with
      | [] => .error (.nothingToClose position)
      | tag :: rest => do
        tag.check
        return rest
    | name => do
      match closeNamed? (← canonicalName name) opened with
      | none => .error (.noOpenTag body position)
      | some (tag, rest) =>
        tag.check
        return rest
  | name => do
    return ⟨← canonicalName name, tagParameters body⟩ :: opened

/-- A text without the backslashes that stand before a bracket. -/
def dropEscapes : List Char → List Char
  | [] => []
  | c :: rest =>
    if c = Text.backslash ∧ rest.head? = some '[' then dropEscapes rest else c :: dropEscapes rest

/-- The text that pieces show.  `plain` holds the characters since the last group, the last one
first, and `position` is that of the next piece. -/
def readPieces (position : Nat) (opened : List OpenTag) (plain : List Char) :
    List Piece → Except Error (List Char)
  | [] => .ok (dropEscapes plain.reverse)
  | .char c :: rest => readPieces (position + 1) opened (c :: plain) rest
  | .group n body :: rest => do
    let before := dropEscapes plain.reverse ++ backslashes (n / 2)
    let next := position + n + body.length + 2
    if n % 2 = 1 then
      return before ++ bracketed body ++ (← readPieces next opened [] rest)
    else
      let opened ← applyTag body (position + n) opened
      return before ++ (← readPieces next opened [] rest)

/-- The text that a marked text shows. -/
def shownText (s : String) : Except Error String :=
  String.ofList <$> readPieces 0 [] [] (pieces s.toList)

end Flowchart.Markup
