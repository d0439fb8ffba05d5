import Flowchart.Literal.Peg
import Flowchart.Literal.Quotation

/-! # The grammar of expressions

Every rule has a parsing expression (`grammar`).  In a strict run the rules also look for the
faults that people make most often: a comma or a branch left out, an equals sign between brackets, a
star on its own.

A text is an expression if its tokens are (`readExpression`).  What is wrong with another text is
found in this order: in its tokens, on the way through the grammar, and on a strict way through it.
The fields of templates are expressions as well. -/

namespace Flowchart.Literal

inductive Rule
  | text
  | list
  | starredList
  | expression
  | plainExpression
  | named
  | item
  | items
  | choice
  | both
  | negation
  | comparison
  | union
  | difference
  | intersection
  | shift
  | sum
  | product
  | factor
  | power
  | awaited
  | primary
  | atom
  | quotations
  | group
  | tuple
  | generator
  | set
  | setGenerator
  | table
  | tableGenerator
  | pair
  | pairs
  | starredValue
  | arguments
  | positional
  | keyed
  | clauses
  | targets
deriving DecidableEq, Repr

/-- A parsing expression over the rules. -/
abbrev Pattern := Peg Rule

namespace Grammar

open Peg (node build refuse strictly lenient ahead notAhead rule many several opt inBrackets)

/-! ### Tokens -/

/-- The words that are not names. -/
def keywords : List String :=
  ["False", "None", "True", "and", "as", "assert", "async", "await", "break", "class", "continue",
   "def", "del", "elif", "else", "except", "finally", "for", "from", "global", "if", "import", "in",
   "is", "lambda", "nonlocal", "not", "or", "pass", "raise", "return", "try", "while", "with",
   "yield"]

/-- The names that are keywords elsewhere; a beginning of one counts as well. -/
def softKeywords : List String := ["_", "case", "match"]

/-- The names that once began statements. -/
def formerKeywords : List String := ["print", "exec"]

def name : Pattern := .token fun
  | .name word => if keywords.contains word then none else some [.leaf (.name word)]
  | _ => none

/-- A name that is a keyword elsewhere, or a beginning of one. -/
def softKeyword : Pattern := .token fun
  | .name word =>
    if softKeywords.any fun k => word.toList.isPrefixOf k.toList then some [] else none
  | _ => none

def word (w : String) : Pattern := .token fun l => if l = .name w then some [] else none

def mark (m : String) : Pattern := .token fun l => if l = .mark m then some [] else none

def number : Pattern := .token fun
  | .number imaginary => some [.leaf (.number imaginary)]
  | _ => none

def quotation : Pattern := .token fun
  | .quotation q => some [.leaf (.quotation q)]
  | _ => none

/-- A word that stands for a value. -/
def truth (w : String) : Pattern := node (.kind (.truth w)) (word w)

def comma : Pattern := mark ","

def inParentheses (p : Pattern) : Pattern := mark "(" >> p >> mark ")"

def inBraces (p : Pattern) : Pattern := mark "\x7b" >> p >> mark "\x7d"

/-- One of some marks. -/
def oneOf (ms : List String) : Pattern := .token fun
  | .mark m => if ms.contains m then some [] else none
  | _ => none

/-- Operands with operators between them, or one operand. -/
def chain (l : Label) (operand operator : Pattern) : Pattern :=
  node l (operand >> several (operator >> operand)) <|> operand

/-! ### Building -/

/-- The quotations that trees stand for. -/
def quotationsOf (ts : List Tree) : List Quotation :=
  ts.filterMap fun t => match t.label with
    | .quotation q => some q
    | _ => none

/-- Quotations side by side as one expression. -/
def joinQuotations (nested : List Char → Option Fault) (ts : List Tree) :
    Except Fault (List Tree) :=
  let qs := quotationsOf ts
  match quotationsFault? nested qs with
  | some fault => .error fault
  | none =>
    if qs.any Quotation.isTemplate then .ok [.leaf (.kind .template)]
    else .ok [.leaf (.text (qs.any Quotation.isBytes))]

/-- An expression under the nodes that follow it. -/
def applyTrailers : List Tree → List Tree
  | [] => []
  | t :: trailers =>
    [trailers.foldl (fun t trailer => .node trailer.label (t :: trailer.children)) t]

/-! ### Expressions -/

/-- Any expression. -/
def expression : Pattern := rule .expression

/-- An expression that no assignment follows. -/
def unassigned : Pattern := expression >> notAhead (mark ":=")

/-- An assignment in an expression. -/
def assignment : Pattern := node (.kind .assignment) (name >> mark ":=" >> expression)

/-- A choice by a condition. -/
def conditional : Pattern :=
  node (.kind .conditional) <|
    rule .choice >> word "if" >> rule .choice >> word "else" >> expression

/-- Two expressions side by side in brackets. -/
def missingComma : Pattern :=
  strictly <| refuse (notAhead (name >> quotation <|> softKeyword) >> rule .choice >>
    rule .plainExpression >> inBrackets) fun _ => some .missingComma

/-- A condition without its other branch. -/
def missingElse : Pattern :=
  strictly <| refuse
    (rule .choice >> word "if" >> rule .choice >> notAhead (word "else" <|> mark ":"))
    fun _ => some .missingElse

/-- The name of a former keyword that an expression starts with. -/
def formerKeyword? (ts : List Tree) : Option String :=
  match ts with
  | .node (.name w) _ :: _ => if formerKeywords.contains w then some w else none
  | _ => none

/-- A former keyword before an expression. -/
def formerStatement : Pattern :=
  strictly <| refuse (name >> notAhead (mark "(") >> rule .starredList)
    fun ts => (formerKeyword? ts).map .missingParentheses

/-- An equals sign that no other one follows. -/
def afterEquals : Pattern := rule .union >> notAhead (mark "=" <|> mark ":=")

/-- What can be assigned to with an equals sign elsewhere. -/
def assignable : Pattern :=
  rule .tuple <|> rule .generator <|> word "True" <|> word "None" <|> word "False"

/-- An assignment in an expression that is none. -/
def wrongAssignment : Pattern :=
  strictly <|
    refuse (expression >> mark ":=" >> expression) (fun ts => some (.assignmentTo (firstKind ts)))
    <|> refuse (name >> mark "=" >> afterEquals) (fun _ => some .equalsSignAfterName)
    <|> refuse (notAhead assignable >> rule .union >> mark "=" >> afterEquals)
      fun ts => some (.equalsSign (firstKind ts))

def comparisonSign : Pattern :=
  oneOf ["==", "!=", "<=", "<", ">=", ">"] <|> word "not" >> word "in" <|> word "in"
    <|> word "is" >> opt (word "not")

/-! ### Brackets -/

/-- A star before a value, in brackets where it has no place. -/
def wrongGroup : Pattern :=
  strictly <| refuse (inParentheses (rule .starredValue)) (fun _ => some .star)
    <|> refuse (inParentheses (mark "**" >> expression)) fun _ => some .doubleStar

/-- A star before the value of a generator, or more than one value without parentheses. -/
def wrongGenerator : Pattern :=
  strictly <| refuse (oneOf ["(", "\x7b"] >> rule .starredValue >> rule .clauses)
      (fun _ => some .starredGenerator)
    <|> refuse
      (mark "\x7b" >> rule .item >> comma >> (rule .items >> rule .clauses <|> rule .clauses))
      (fun _ => some .looseTarget)

/-- What a table may not have behind a colon. -/
def wrongEntry : Pattern :=
  refuse (expression >> mark ":" >> mark "*" >> rule .union) (fun _ => some .starredEntry)
    <|> refuse (expression >> mark ":" >> ahead (mark "\x7d" <|> comma))
      fun _ => some .missingEntry

/-- The entries of a table with something wrong in them. -/
def wrongEntries : Pattern :=
  refuse (rule .pair >> many (comma >> rule .pair) >> comma >> expression >> notAhead (mark ":"))
      (fun _ => some .missingColon)
    <|> rule .pair >> many (comma >> rule .pair) >> comma >> wrongEntry
    <|> wrongEntry

/-- An equals sign behind an argument that is no name. -/
def wrongKey : Pattern :=
  strictly <| refuse (notAhead (name >> mark "=") >> expression >> mark "=")
    fun _ => some .assignmentInCall

def keyedArgument : Pattern := name >> mark "=" >> expression

/-- The parts of a call that follow what is called. -/
def trailer : Pattern :=
  node (.kind .member) (mark "." >> name)
    <|> node (.kind .call) (rule .generator)
    <|> node (.kind .call) (inParentheses (opt (rule .arguments)))

/-- What a target of a clause may not be. -/
def wrongTarget? (ts : List Tree) : Option Fault :=
  match firstKind ts with
  | .name | .member => none
  | kind => some (.target kind)

/-- The parsing expression of every rule. -/
def grammar (nested : List Char → Option Fault) : Rule → Pattern
  | .text => rule .list >> .finish
  | .list =>
    node (.kind .tuple) (expression >> several (comma >> expression) >> opt comma)
      <|> node (.kind .tuple) (expression >> comma) <|> expression
  | .starredList =>
    let item := node (.kind .starred) (mark "*" >> rule .union) <|> expression
    node (.kind .tuple) (item >> several (comma >> item) >> opt comma)
      <|> node (.kind .tuple) (item >> comma) <|> item
  | .expression => missingComma <|> missingElse <|> formerStatement <|> conditional <|> rule .choice
  | .plainExpression => lenient (conditional <|> rule .choice)
  | .named => assignment <|> wrongAssignment <|> unassigned
  | .item => node (.kind .starred) (mark "*" >> rule .union) <|> rule .named
  | .items => rule .item >> many (comma >> rule .item) >> opt comma
  | .choice => chain (.kind .operation) (rule .both) (word "or")
  | .both => chain (.kind .operation) (rule .negation) (word "and")
  | .negation =>
    node (.kind .operation) (word "not" >> rule .negation) <|> rule .comparison
  | .comparison => chain (.kind .comparison) (rule .union) comparisonSign
  | .union => chain (.kind .operation) (rule .difference) (mark "|")
  | .difference => chain (.kind .operation) (rule .intersection) (mark "^")
  | .intersection => chain (.kind .operation) (rule .shift) (mark "&")
  | .shift => chain (.kind .operation) (rule .sum) (oneOf ["<<", ">>"])
  | .sum => chain .sum (rule .product) (oneOf ["+", "-"])
  | .product => chain (.kind .operation) (rule .factor) (oneOf ["*", "/", "//", "%", "@"])
  | .factor =>
    node .sign (oneOf ["+", "-"] >> rule .factor)
      <|> node (.kind .operation) (mark "~" >> rule .factor) <|> rule .power
  | .power =>
    node (.kind .operation) (rule .awaited >> mark "**" >> rule .factor) <|> rule .awaited
  | .awaited => node (.kind .awaited) (word "await" >> rule .primary) <|> rule .primary
  | .primary => build (rule .atom >> many trailer) fun ts => .ok (applyTrailers ts)
  | .atom =>
    name <|> truth "True" <|> truth "False" <|> truth "None" <|> rule .quotations <|> number
      <|> rule .tuple <|> rule .group <|> rule .generator
      <|> rule .table <|> rule .set <|> rule .tableGenerator <|> rule .setGenerator
      <|> node (.kind .ellipsis) (mark "...")
  | .quotations => build (several quotation) (joinQuotations nested)
  | .group =>
    inParentheses (word "yield" >> opt (rule .starredList) <|> rule .named) <|> wrongGroup
  | .tuple =>
    node (.kind .tuple) (inParentheses (opt (rule .item >> comma >> opt (rule .items))))
  | .generator =>
    node (.kind .generator) (inParentheses ((assignment <|> unassigned) >> rule .clauses))
      <|> wrongGenerator
  | .set => node (.kind .set) (inBraces (rule .items))
  | .setGenerator =>
    node (.kind .setGenerator) (inBraces (rule .named >> rule .clauses))
      <|> wrongGenerator
  | .table =>
    node (.kind .table) (inBraces (opt (rule .pairs)))
      <|> mark "\x7b" >> wrongEntries
  | .tableGenerator =>
    node (.kind .tableGenerator)
      (inBraces (expression >> mark ":" >> expression >> rule .clauses))
  | .pair =>
    node .entry (mark "**" >> rule .union)
      <|> node .entry (expression >> mark ":" >> expression)
  | .pairs => rule .pair >> many (comma >> rule .pair) >> opt comma
  | .starredValue =>
    node (.kind .starred) (mark "*" >> expression)
      <|> refuse (mark "*") fun _ => some .loneStar
  | .arguments =>
    (rule .positional <|> rule .keyed) >> opt comma >> ahead (mark ")")
  | .positional =>
    let argument := rule .starredValue <|> (assignment <|> unassigned) >> notAhead (mark "=")
    argument >> many (comma >> argument) >> opt (comma >> rule .keyed)
  | .keyed =>
    let starred := wrongKey <|> keyedArgument <|> rule .starredValue
    let doubled := wrongKey <|> keyedArgument <|> mark "**" >> expression
    starred >> many (comma >> starred) >> comma >> doubled >> many (comma >> doubled)
      <|> starred >> many (comma >> starred)
      <|> doubled >> many (comma >> doubled)
  | .clauses =>
    several (opt (word "async") >> word "for" >>
      (rule .targets >> word "in" >> rule .choice >> many (word "if" >> rule .choice)
        <|> strictly (refuse (rule .starredList) wrongTarget?)))
  | .targets =>
    let target := opt (mark "*") >> (name <|> inParentheses (rule .targets))
    target >> many (comma >> target) >> opt comma

end Grammar

/-! ### Reading expressions -/

/-- The rules that may be nested on the way to one token. -/
def nestingPerToken : Nat := 1000

/-- Runs the grammar on tokens from their start. -/
def runGrammar (nested : List Char → Option Fault) (text : Tokens) (strict : Bool) :
    Peg.Outcome :=
  let depth := (text.list.size + 2) * nestingPerToken
  ((Peg.rule Rule.text).run (Grammar.grammar nested) text depth strict 0 |>.run []).1

/-- Reads an expression; fields of templates are looked into if they are nested at most `n`
deep. -/
def readNested : Nat → List Char → Except Fault (List Tree)
  | n, s => do
    let text ← (Tokens.ofChars s).mapError .token
    let nested : List Char → Option Fault := fun s =>
      match n with
      | 0 => none
      | n + 1 => match readNested n s with
        | .ok _ => none
        | .error fault => some fault
    match runGrammar nested text false with
    | .matched _ found => .ok found
    | .refused fault => .error fault
    | .failed => match runGrammar nested text true with
      | .refused fault => .error fault
      | _ => .error .malformed

def readExpression (s : List Char) : Except Fault (List Tree) := readNested s.length s

end Flowchart.Literal
