import Flowchart.Literal.Token

/-! # Parsing expressions

An expression is a tree of nodes.  A node has a kind, the word or sign that tells expressions of one
kind apart where their value needs it, and the nodes under it.

A grammar gives every rule a parsing expression, and a run of an expression at a position of some
tokens fails, matches up to a position with the trees found, or refuses the whole text for a fault
(`Peg.run`).  A choice takes the first alternative that does not fail.  Some expressions only look
for faults, and some of these only in a strict run: in another they fail.
The result of a rule at a position is remembered, and no rule runs twice at one: a result of a run
that was not strict stands. -/

namespace Flowchart.Literal

/-! ### Trees -/

/-- What a node stands for. -/
inductive Label
  | name (word : String)
  | number (imaginary : Bool)
  | quotation (q : Quotation)
  | text (bytes : Bool)
  | sign
  | sum
  | entry
  | kind (k : Kind)
deriving DecidableEq, Repr

inductive Tree
  | node (label : Label) (children : List Tree)
deriving Repr

namespace Tree

/-- What the root of a tree stands for. -/
def label : Tree → Label
  | node l _ => l

/-- The trees under the root. -/
def children : Tree → List Tree
  | node _ ts => ts

def leaf (l : Label) : Tree := node l []

def kind (t : Tree) : Kind :=
  match t.label with
  | .name _ => .name
  | .number _ | .text _ | .quotation _ => .constant
  | .sign | .sum | .entry => .operation
  | .kind k => k

end Tree

def firstKind (ts : List Tree) : Kind := (ts.head?.map Tree.kind).getD .operation

/-! ### Parsing expressions -/

/-- A parsing expression over rules. -/
inductive Peg (ρ : Type)
  | empty
  | finish
  | token (read : Lexeme → Option (List Tree))
  | seq (first second : Peg ρ)
  | choice (first second : Peg ρ)
  | many (p : Peg ρ)
  | ahead (p : Peg ρ)
  | notAhead (p : Peg ρ)
  | inBrackets
  | rule (r : ρ)
  | build (p : Peg ρ) (make : List Tree → Except Fault (List Tree))
  | refuse (p : Peg ρ) (fault : List Tree → Option Fault)
  | strictly (p : Peg ρ)
  | lenient (p : Peg ρ)

namespace Peg

variable {ρ : Type}

instance : AndThen (Peg ρ) := ⟨fun p q => seq p (q ())⟩

instance : OrElse (Peg ρ) := ⟨fun p q => choice p (q ())⟩

/-- What may be left out. -/
def opt (p : Peg ρ) : Peg ρ := p <|> empty

def several (p : Peg ρ) : Peg ρ := p >> many p

/-- Puts what is found under a node. -/
def node (l : Label) (p : Peg ρ) : Peg ρ := build p fun ts => .ok [.node l ts]

/-! ### Running -/

/-- What a run gives. -/
inductive Outcome
  | failed
  | matched (position : Nat) (found : List Tree)
  | refused (fault : Fault)

/-- The results of rules by rule and position. -/
abbrev Memory (ρ : Type) := List ((ρ × Nat) × Outcome)

/-- The outcome of an expression that looks at the end of a text. -/
def atEnd (text : Tokens) (otherwise : Outcome) : Outcome :=
  match text.ending with
  | some fault => .refused fault
  | none => otherwise

/-- Whether the token before a position stands in brackets. -/
def isInBrackets (text : Tokens) (position : Nat) : Bool :=
  0 < position && (text.list[position - 1]?).any fun t => 0 < t.depth

/-- Runs an expression at a position, with rules nested at most `n` deep. -/
def run [BEq ρ] (grammar : ρ → Peg ρ) (text : Tokens) :
    Nat → Bool → Peg ρ → Nat → StateM (Memory ρ) Outcome
  | 0, _, _, _ => pure .failed
  | n + 1, strict, p, position =>
    match p with
    | empty => pure (.matched position [])
    | finish => pure <|
      if position < text.list.size then .failed else atEnd text (.matched position [])
    | token read => pure <|
      match text.list[position]? with
      | none => atEnd text .failed
      | some t => match read t.lexeme with
        | none => .failed
        | some found => .matched (position + 1) found
    | seq first second => do
      match ← run grammar text n strict first position with
      | .matched middle before => match ← run grammar text n strict second middle with
        | .matched last found => pure (.matched last (before ++ found))
        | outcome => pure outcome
      | outcome => pure outcome
    | choice first second => do
      match ← run grammar text n strict first position with
      | .failed => run grammar text n strict second position
      | outcome => pure outcome
    | many p => do
      match ← run grammar text n strict p position with
      | .failed => pure (.matched position [])
      | .matched middle before => match ← run grammar text n strict (many p) middle with
        | .matched last found => pure (.matched last (before ++ found))
        | outcome => pure outcome
      | outcome => pure outcome
    | ahead p => do
      match ← run grammar text n strict p position with
      | .matched _ _ => pure (.matched position [])
      | outcome => pure outcome
    | notAhead p => do
      match ← run grammar text n strict p position with
      | .failed => pure (.matched position [])
      | .matched _ _ => pure .failed
      | outcome => pure outcome
    | inBrackets => pure <|
      if isInBrackets text position then .matched position [] else .failed
    | rule r => do
      match (← get).lookup (r, position) with
      | some outcome => pure outcome
      | none =>
        let outcome ← run grammar text n strict (grammar r) position
        modify fun memory => ((r, position), outcome) :: memory
        pure outcome
    | build p make => do
      match ← run grammar text n strict p position with
      | .matched last found => pure <| match make found with
        | .ok made => .matched last made
        | .error fault => .refused fault
      | outcome => pure outcome
    | refuse p fault => do
      match ← run grammar text n strict p position with
      | .matched _ found => pure <| match fault found with
        | some fault => .refused fault
        | none => .failed
      | outcome => pure outcome
    | strictly p => if strict then run grammar text n true p position else pure .failed
    | lenient p => run grammar text n false p position

end Peg

end Flowchart.Literal
