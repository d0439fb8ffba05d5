import Flowchart.Literal.Fault
import Flowchart.Text.Quoted
import Flowchart.Text.Word

/-! # Tokens of a literal

A text is cut into names, numbers, quotations and marks; blanks and a comment at the end part them.
Every token knows how many brackets are open after it, and the text as a whole knows what is wrong
with its end, if anything: a bracket stays open, or a backslash continues no line
(`Tokens.ofChars`). -/

namespace Flowchart.Literal

/-- A quotation: the letters before its quotes, in lower case, and what stands between them. -/
structure Quotation where
  lead : List Char
  body : List Char
deriving DecidableEq, Repr

inductive Lexeme
  | name (word : String)
  | number (imaginary : Bool)
  | quotation (q : Quotation)
  | mark (text : String)
deriving DecidableEq, Repr

/-- A token with the number of brackets that are open after it. -/
structure Token where
  lexeme : Lexeme
  depth : Nat
deriving DecidableEq, Repr

/-- The tokens of a text and what is wrong with its end. -/
structure Tokens where
  list : Array Token
  ending : Option Fault
deriving Repr

/-- A token that was taken off the front of a text, and the rest. -/
abbrev Cut := Except TokenFault (Lexeme × List Char)

/-! ### Names -/

/-- A character that ends no name: beyond ASCII all count, and the wrong ones are named. -/
def isNameChar (c : Char) : Bool := c.isAlphanum || c == '_' || 128 ≤ c.toNat

def isNameStart (c : Char) : Bool := isNameChar c && !c.isDigit

/-- The first character of a name that it may not hold. -/
def wrongChar? : List Char → Option Char
  | [] => none
  | c :: rest =>
    if Text.isIdentifierStart c then rest.find? fun d => !Text.isIdentifierChar d else some c

/-- The letters that may stand before a quotation. -/
def quotationLeads : List String := ["b", "u", "r", "f", "br", "rb", "fr", "rf"]

/-! ### Quotations -/

/-- Cuts a text behind the quotes that end a quotation; a backslash takes the next character
along. -/
def untilQuotes? (quotes : List Char) : List Char → Option (List Char × List Char)
  | [] => none
  | [c] => if quotes = [c] then some ([], []) else none
  | c :: d :: rest =>
    if quotes.isPrefixOf (c :: d :: rest) then
      some ([], (c :: d :: rest).drop quotes.length)
    else if c = Text.backslash then
      (untilQuotes? quotes rest).map fun (body, rest) => (c :: d :: body, rest)
    else (untilQuotes? quotes (d :: rest)).map fun (body, rest) => (c :: body, rest)

/-- Takes a quotation off a text that starts with a quote; three quotes end with three. -/
def cutQuotation (lead : List Char) (s : List Char) : Cut :=
  let quotes := s.take 1
  let triple := quotes ++ quotes ++ quotes
  let size := if triple.isPrefixOf s then 3 else 1
  match untilQuotes? (s.take size) (s.drop size) with
  | some (body, rest) => .ok (.quotation ⟨lead, body⟩, rest)
  | none => .error (.unended (size == 3))

def startsWithQuote (s : List Char) : Bool :=
  s.head?.any fun c => c == Text.singleQuote || c == Text.doubleQuote

/-- Takes a name off a text, or the quotation that it leads. -/
def cutName (s : List Char) : Cut :=
  let word := s.takeWhile isNameChar
  let rest := s.drop word.length
  let lead := word.map Char.toLower
  if startsWithQuote rest && quotationLeads.contains (String.ofList lead) then
    cutQuotation lead rest
  else match wrongChar? word with
    | some c => .error (.character c)
    | none => .ok (.name (String.ofList word), rest)

/-! ### Numbers -/

/-- The digits of a way to write a number. -/
def NumberForm.isDigit : NumberForm → Char → Bool
  | decimal, c | imaginary, c => c.isDigit
  | hexadecimal, c =>
    c.isDigit || ('a' ≤ c && c ≤ 'f') || ('A' ≤ c && c ≤ 'F')
  | octal, c => '0' ≤ c && c ≤ '7'
  | binary, c => c == '0' || c == '1'

/-- What stands behind a run of digits with single underscores between them; `due` says that a digit
must come next. -/
def afterDigits (form : NumberForm) (due : Bool) :
    List Char → Except TokenFault (List Char)
  | [] => if due then .error (.number form) else .ok []
  | c :: rest =>
    if form.isDigit c then afterDigits form false rest
    else if c.isDigit then .error (.digit c form)
    else if due then .error (.number form)
    else if c = '_' then afterDigits form true rest
    else .ok (c :: rest)

/-- The words that may follow a number directly. -/
def numberFollowers : List String := ["and", "else", "for", "not", "or"]

/-- The beginnings of words that may follow a number directly. -/
def numberFollowerStarts : List String := ["if", "in", "is"]

/-- A text that may follow a number directly. -/
def followsNumber (s : List Char) : Bool :=
  numberFollowers.contains (String.ofList (s.takeWhile isNameChar)) ||
    numberFollowerStarts.any fun start => start.toList.isPrefixOf s

/-- A number that ends here; no other name may start with an ASCII character right behind it. -/
def endNumber (form : NumberForm) (rest : List Char) : Cut :=
  if followsNumber rest || !rest.head?.any (fun c => c.isAlphanum || c == '_') then
    .ok (.number (form == .imaginary), rest)
  else .error (.number form)

/-- A number with another base, behind its letter; an underscore may stand before the digits. -/
def cutBased (form : NumberForm) (s : List Char) : Cut := do
  endNumber form (← afterDigits form true (if s.head? = some '_' then s.drop 1 else s))

/-- The end of a decimal number: an imaginary one has a letter more. -/
def cutImaginary (s : List Char) : Cut :=
  match s with
  | 'j' :: rest | 'J' :: rest => endNumber .imaginary rest
  | rest => endNumber .decimal rest

def isSign (c : Char) : Bool := c == '+' || c == '-'

/-- The exponent of a decimal number, behind its letter, and the end of the number; a letter without
a digit behind it is not part of the number. -/
def cutExponent (letter : Char) (s : List Char) : Cut :=
  let unsigned := if s.head?.any isSign then s.drop 1 else s
  if unsigned.head?.any Char.isDigit then do
    cutImaginary (← afterDigits .decimal false unsigned)
  else if s.head?.any isSign then .error (.number .decimal)
  else endNumber .decimal (letter :: s)

/-- What follows the digits before and after the point of a decimal number. -/
def cutScale (s : List Char) : Cut :=
  match s with
  | 'e' :: rest => cutExponent 'e' rest
  | 'E' :: rest => cutExponent 'E' rest
  | rest => cutImaginary rest

/-- What follows the point of a decimal number. -/
def cutFraction (s : List Char) : Cut := do
  cutScale (← if s.head?.any Char.isDigit then afterDigits .decimal false s else .ok s)

/-- A digit other than zero. -/
def isNonzeroDigit (c : Char) : Bool := c.isDigit && c != '0'

/-- A decimal number; a whole number has no zeros before other digits. -/
def cutDecimal (s : List Char) : Cut := do
  let rest ← afterDigits .decimal false s
  let digits := s.take (s.length - rest.length)
  match rest with
  | '.' :: tail => cutFraction tail
  | 'e' :: _ | 'E' :: _ | 'j' :: _ | 'J' :: _ => cutScale rest
  | _ =>
    if s.head? = some '0' && digits.any isNonzeroDigit then .error .leadingZeros
    else endNumber .decimal rest

/-- Takes a number off a text that starts with a digit. -/
def cutNumber (s : List Char) : Cut :=
  match s with
  | '0' :: 'x' :: rest | '0' :: 'X' :: rest => cutBased .hexadecimal rest
  | '0' :: 'o' :: rest | '0' :: 'O' :: rest => cutBased .octal rest
  | '0' :: 'b' :: rest | '0' :: 'B' :: rest => cutBased .binary rest
  | s => cutDecimal s

/-! ### Marks -/

/-- The marks of more than one character, the longer ones first. -/
def longMarks : List String :=
  ["**=", "//=", ">>=", "<<=", "...", "!=", "%=", "&=", "**", "*=", "+=", "-=", "->", "//", "/=",
   ":=", "<<", "<=", "<>", "==", ">=", ">>", "@=", "^=", "|="]

/-- Takes a mark off a text. -/
def cutMark (s : List Char) : Cut :=
  match longMarks.find? fun m => m.toList.isPrefixOf s with
  | some m => .ok (.mark m, s.drop m.toList.length)
  | none => match s with
    | [] => .ok (.mark "", [])
    | c :: rest =>
      if Text.isPrintable c then .ok (.mark c.toString, rest) else .error (.character c)

/-- Takes a token off a text that starts with one. -/
def cutToken (s : List Char) : Cut :=
  match s with
  | [] => cutMark []
  | c :: rest =>
    if isNameStart c then cutName s
    else if c.isDigit then cutNumber s
    else if c = '.' && rest.head?.any Char.isDigit then cutFraction rest
    else if startsWithQuote s then cutQuotation [] s
    else cutMark s

/-! ### Brackets -/

def closingOf : Char → Char
  | '(' => ')'
  | '[' => ']'
  | _ => '\x7d'

/-- The open brackets after a token, the last one first. -/
def bracketsAfter (opened : List Char) : Lexeme → Except TokenFault (List Char)
  | .mark "(" => .ok ('(' :: opened)
  | .mark "[" => .ok ('[' :: opened)
  | .mark "\x7b" => .ok ('\x7b' :: opened)
  | .mark ")" => close ')'
  | .mark "]" => close ']'
  | .mark "\x7d" => close '\x7d'
  | _ => .ok opened
where
  /-- The open brackets after a closing one. -/
  close (c : Char) : Except TokenFault (List Char) :=
    match opened with
    | [] => .error (.unmatched c)
    | o :: rest => if closingOf o = c then .ok rest else .error (.mismatched c o)

/-! ### Texts -/

/-- The blanks between tokens. -/
def isGap (c : Char) : Bool := c == ' ' || c == '\t' || c == '\n' || c == '\r' || c == '\x0c'

/-- What is wrong with the end of a text in which brackets are open. -/
def openedFault? (opened : List Char) : Option Fault := opened.head?.map .unclosed

/-- The tokens of a text after others, with at most `n` steps; `opened` holds the open brackets. -/
def tokensFrom : Nat → List Char → Array Token → List Char → Except TokenFault Tokens
  | 0, opened, found, _ => .ok ⟨found, openedFault? opened⟩
  | n + 1, opened, found, s =>
    match s.dropWhile isGap with
    | [] | '#' :: _ => .ok ⟨found, openedFault? opened⟩
    | '\x5c' :: _ => .ok ⟨found, some .looseContinuation⟩
    | s => do
      let (lexeme, rest) ← cutToken s
      let opened ← bracketsAfter opened lexeme
      tokensFrom n opened (found.push ⟨lexeme, opened.length⟩) rest

/-- The tokens of a text.  Every step takes a character at least. -/
def Tokens.ofChars (s : List Char) : Except TokenFault Tokens :=
  if s.contains '\x00' then .error .null else tokensFrom (s.length + 1) [] #[] s

end Flowchart.Literal
