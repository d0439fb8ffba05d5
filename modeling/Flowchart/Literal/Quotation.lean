import Flowchart.Literal.Token

/-! # What stands in quotations

A quotation is a text, a row of bytes or a template, by the letters before it.  Texts and bytes hold
escapes, templates hold fields in braces; quotations side by side are one.  `quotationsFault?` finds
the first thing that is wrong with them. -/

namespace Flowchart.Literal

namespace Quotation

def isBytes (q : Quotation) : Bool := q.lead.contains 'b'

/-- A quotation without escapes. -/
def isRaw (q : Quotation) : Bool := q.lead.contains 'r'

/-- A template. -/
def isTemplate (q : Quotation) : Bool := q.lead.contains 'f'

end Quotation

/-! ### Escapes -/

/-- The places that a character takes in positions: beyond ASCII it counts as its own escape. -/
def places (c : Char) : Nat := if c.toNat < 128 then 1 else 10

/-- The places that a backslash takes before a character beyond ASCII. -/
def backslashPlaces : Nat := 6

def escapeDigits? : Char → Option (Nat × EscapeForm)
  | 'x' => some (2, .two)
  | 'u' => some (4, .four)
  | 'U' => some (8, .eight)
  | _ => none

/-- What is wrong with a named escape at a position, before the text behind its letter. -/
def nameFault? (position : Nat) : List Char → Option Fault
  | '\x7b' :: rest =>
    let name := rest.takeWhile (· != '\x7d')
    if name.length = rest.length then
      some (.escape position (position + 2 + (name.map places).foldl (· + ·) 0) .name)
    else if name.isEmpty then some (.escape position (position + 2) .name)
    else none
  | _ => some (.escape position (position + 1) .name)

/-- What is wrong with the escapes of a text that starts at a position. -/
def escapeFault? (position : Nat) : List Char → Option Fault
  | [] => none
  | [_] => none
  | c :: d :: rest =>
    if c != Text.backslash then escapeFault? (position + places c) (d :: rest)
    else if 128 ≤ d.toNat then escapeFault? (position + backslashPlaces + places d) rest
    else if d = 'N' then
      (nameFault? position rest).or (escapeFault? (position + 2) rest)
    else match escapeDigits? d with
      | none => escapeFault? (position + 2) rest
      | some (count, form) =>
        let given := (rest.take count).takeWhile NumberForm.hexadecimal.isDigit
        if given.length < count then
          some (.escape position (position + 1 + given.length) form)
        else escapeFault? (position + 2) rest

/-- What is wrong with the escapes of bytes that start at a position. -/
def byteEscapeFault? (position : Nat) : List Char → Option Fault
  | [] => none
  | [_] => none
  | c :: d :: rest =>
    if c != Text.backslash then byteEscapeFault? (position + 1) (d :: rest)
    else if d = 'x' && ((rest.take 2).takeWhile NumberForm.hexadecimal.isDigit).length < 2 then
      some (.byteEscape position)
    else byteEscapeFault? (position + 2) rest

/-! ### Templates -/

/-- What follows a literal part of a template. -/
inductive AfterPart
  | finish
  | part (rest : List Char)
  | field (rest : List Char)
deriving DecidableEq, Repr

def isBrace (c : Char) : Bool := c == '\x7b' || c == '\x7d'

/-- What follows a brace in the literal parts of a template; a doubled one stands for one. -/
def afterBrace (c : Char) (rest : List Char) : Except TemplateFault (List Char × AfterPart) :=
  if rest.head? = some c then .ok ([c], .part (rest.drop 1))
  else if c = '\x7b' then .ok ([], .field rest)
  else .error .loneClosing

/-- Where in an escape a text stands: in none, behind a backslash, behind the letter of a named
escape, or in its braces. -/
inductive EscapeState
  | plain
  | escaped
  | named
  | inName
deriving DecidableEq, Repr

/-- Where a text stands behind a character. -/
def EscapeState.after (raw : Bool) (c : Char) : EscapeState → EscapeState
  | plain => if c = Text.backslash && !raw then escaped else plain
  | escaped => if c = 'N' then named else plain
  | named => if c = '\x7b' then inName else plain
  | inName => if c = '\x7d' then plain else inName

/-- Cuts a literal part off a template.  A brace ends it unless it belongs to a named escape. -/
def cutPart (raw : Bool) (state : EscapeState) :
    List Char → Except TemplateFault (List Char × AfterPart)
  | [] => .ok ([], .finish)
  | c :: rest =>
    if isBrace c && (state == .plain || state == .escaped) then afterBrace c rest
    else (fun (part, next) => (c :: part, next)) <$> cutPart raw (state.after raw c) rest

def fieldEnds : List Char := ['!', ':', '=', '\x7d']

/-- The marks that make a comparison with an equals sign behind them. -/
def comparisonLeads : List Char := ['!', '=', '<', '>']

/-- Cuts the expression of a field off a template, up to the mark that ends it. -/
def cutField (opened : List Char) (quote : Option Char) :
    List Char → Except TemplateFault (List Char × List Char)
  | [] => .error <| match quote, opened with
    | some _, _ => .unended
    | none, o :: _ => .unmatched o
    | none, [] => .noClosing
  | c :: rest =>
    let extend (opened : List Char) (quote : Option Char) :=
      (fun (part, tail) => (c :: part, tail)) <$> cutField opened quote rest
    if c = Text.backslash then .error .backslash
    else match quote with
      | some q => extend opened (if c = q then none else quote)
      | none =>
        if c == Text.singleQuote || c == Text.doubleQuote then extend opened (some c)
        else if c == '(' || c == '[' || c == '\x7b' then extend (c :: opened) none
        else if c = '#' then .error .comment
        else match opened with
          | o :: others =>
            if c == ')' || c == ']' || c == '\x7d' then
              if closingOf o = c then extend others none else .error (.mismatched c o)
            else extend opened none
          | [] =>
            if comparisonLeads.contains c && rest.head? = some '=' then
              match rest with
              | [] => extend [] none
              | d :: tail =>
                (fun (part, tail) => (c :: d :: part, tail)) <$> cutField [] none tail
            else if fieldEnds.contains c then .ok ([], c :: rest)
            else if c == ')' || c == ']' then .error (.unmatched c)
            else extend [] none

/-- What is wrong with the expression of a field before the mark that ends it. -/
def fieldFault? (nested : List Char → Option Fault) (expression : List Char) (ending : Char) :
    Option Fault :=
  if expression.all isGap then
    some (.template (if ending = '\x7d' then .empty else .nothingBefore ending))
  else (nested ('(' :: expression ++ [')'])).map .inField

/-- What is wrong with the conversion behind the expression of a field. -/
def conversionFault? : List Char → Option Fault
  | '!' :: c :: _ =>
    if c == 's' || c == 'r' || c == 'a' then none else some (.template .conversion)
  | _ => none

/-- What is wrong with a template, looked at in at most `n` parts. -/
def templateFault? (nested : List Char → Option Fault) (raw : Bool) : Nat → List Char →
    Option Fault
  | 0, _ => none
  | n + 1, s =>
    match cutPart raw .plain s with
    | .error f => some (.template f)
    | .ok (part, next) =>
      (if raw then none else escapeFault? 0 part).or <| match next with
        | .finish => none
        | .part rest => templateFault? nested raw n rest
        | .field rest => match cutField [] none rest with
          | .error f => some (.template f)
          | .ok (expression, rest) =>
            (fieldFault? nested expression (rest.headD '\x7d')).or <|
            (conversionFault? rest).or <|
              match rest.dropWhile (· != '\x7d') with
              | [] => some (.template .noClosing)
              | _ :: rest => templateFault? nested raw n rest

/-! ### Quotations side by side -/

/-- What is wrong with the characters and escapes of a text or a row of bytes. -/
def Quotation.escapeFault? (q : Quotation) : Option Fault :=
  if q.isTemplate then none
  else if q.isBytes then
    if q.body.any fun c => 128 ≤ c.toNat then some .wideBytes
    else if q.isRaw then none else byteEscapeFault? 0 q.body
  else if q.isRaw then none else Literal.escapeFault? 0 q.body

/-- What is wrong with quotations of which the first is bytes or not. -/
def mixtureFault? (nested : List Char → Option Fault) (bytes : Bool) :
    List Quotation → Option Fault
  | [] => none
  | q :: rest =>
    q.escapeFault?.or <|
      (if q.isBytes = bytes then none else some .mixedBytes).or <|
        (if q.isTemplate then templateFault? nested q.isRaw (q.body.length + 1) q.body
          else none).or <|
        mixtureFault? nested bytes rest

/-- What is wrong with quotations side by side. -/
def quotationsFault? (nested : List Char → Option Fault) (qs : List Quotation) : Option Fault :=
  mixtureFault? nested ((qs.head?.map Quotation.isBytes).getD false) qs

end Flowchart.Literal
