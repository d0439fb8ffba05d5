import Flowchart.Grammar.Shape

/-! # Edges

An edge line starts with the source, optionally declared in place, then a glyph that says how the
two are connected, an optional label between bars, and the target; blanks may stand between any
two of these.  `readEdge?` reads such a beginning of a line, and what follows the target is left to
the declarations. -/

namespace Flowchart.Grammar

/-- The connector that a glyph stands for. -/
structure ConnectorRule where
  glyph : List Char
  connector : Connector
deriving DecidableEq, Repr

namespace ConnectorRule

/-- The rules of the language, long glyphs before the ones that they start with. -/
def standard : List ConnectorRule :=
  [⟨"-.->".toList, .dotted⟩, ⟨"-->".toList, .arrow⟩, ⟨"==>".toList, .thickArrow⟩,
   ⟨"===".toList, .thick⟩, ⟨"---".toList, .plain⟩, ⟨"--".toList, .plain⟩]

/-- The connector of a glyph; of rules for the same glyph the last one counts. -/
def connectorOf (rules : List ConnectorRule) (glyph : List Char) : Connector :=
  match rules.reverse.find? fun rule => rule.glyph == glyph with
  | some rule => rule.connector
  | none => .plain

end ConnectorRule

/-- The brackets in the order in which they are tried after a source: double parentheses start
with a single one. -/
def suffixRules : List BracketRule := [.ellipse, .rectangle, .diamond, .rounded]

/-- What stands around an edge label. -/
def bars : Enclosure := ⟨['|'], ['|'], by simp⟩

/-- The pieces of an edge line, in the order in which they stand. -/
structure EdgeReading where
  source : List Char
  gapSource : List Char
  suffix : Option (BracketRule × List Char)
  gapSuffix : List Char
  glyph : List Char
  gapGlyph : List Char
  label : Option (List Char)
  gapLabel : List Char
  target : List Char

namespace EdgeReading

/-- The text of an optional shape after the source. -/
def suffixText (r : EdgeReading) : List Char :=
  match r.suffix with
  | none => []
  | some (rule, body) => rule.enclosure.wrap body

/-- The text of an optional label, with its bars. -/
def labelText (r : EdgeReading) : List Char :=
  match r.label with
  | none => []
  | some body => bars.wrap body

/-- The pieces before the label. -/
def lead (r : EdgeReading) : List Char :=
  r.source ++ r.gapSource ++ r.suffixText ++ r.gapSuffix ++ r.glyph ++ r.gapGlyph

/-- The text that was read. -/
def text (r : EdgeReading) : List Char := r.lead ++ r.labelText ++ r.gapLabel ++ r.target

/-- The columns of the label and its bars. -/
def labelSpan (r : EdgeReading) : Option Span :=
  r.label.map fun _ => (r.lead.length, r.lead.length + r.labelText.length)

def targetColumn (r : EdgeReading) : Nat :=
  r.lead.length + r.labelText.length + r.gapLabel.length

/-- The edge that was read; a label that is empty once cleaned counts as none. -/
def edge (rules : List ConnectorRule) (r : EdgeReading) : Edge :=
  ⟨String.ofList r.source, String.ofList r.target,
   (r.label.map cleanLabel).filter (· != ""), ConnectorRule.connectorOf rules r.glyph⟩

end EdgeReading

/-! ### Reading -/

section
variable {α : Type}

/-- Reads an optional shape, preferring one to none. -/
def readSuffix (next : Option (BracketRule × List Char) → List Char → Option α) (s : List Char) :
    Option α :=
  (suffixRules.findSome? fun rule =>
    rule.enclosure.read (fun body rest => next (some (rule, body)) rest) s) <|> next none s

/-- Reads the glyph of one of the rules, preferring earlier ones. -/
def readGlyph (rules : List ConnectorRule) (next : List Char → List Char → Option α)
    (s : List Char) : Option α :=
  rules.findSome? fun rule => (after? rule.glyph s).bind fun rest => next rule.glyph rest

/-- Reads an optional label between bars, preferring one to none. -/
def readLabel (next : Option (List Char) → List Char → Option α) (s : List Char) : Option α :=
  (bars.read (fun body rest => next (some body) rest) s) <|> next none s

end

/-- Reads the edge at the start of a line. -/
def readEdge? (rules : List ConnectorRule) (line : List Char) : Option EdgeReading :=
  line |> readId fun r₁ =>
  r₁ |> readBlanks fun r₂ =>
  r₂ |> readSuffix fun suffix r₃ =>
  r₃ |> readBlanks fun r₄ =>
  r₄ |> readGlyph rules fun glyph r₅ =>
  r₅ |> readBlanks fun r₆ =>
  r₆ |> readLabel fun label r₇ =>
  r₇ |> readBlanks fun r₈ =>
  r₈ |> readId fun r₉ =>
  some { source := upTo line r₁, gapSource := upTo r₁ r₂, suffix, gapSuffix := upTo r₃ r₄, glyph,
         gapGlyph := upTo r₅ r₆, label, gapLabel := upTo r₇ r₈, target := upTo r₈ r₉ }

end Flowchart.Grammar
