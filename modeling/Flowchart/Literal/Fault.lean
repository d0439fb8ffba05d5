import Flowchart.Text.Quoted

/-! # What is wrong with a literal

A text that is no expression fails in its tokens (`TokenFault`), inside one of its quotations
(`QuotationFault`) or in the way its tokens are put together (`Fault`).  Every cause has one
wording. -/

namespace Flowchart.Literal

/-! ### Tokens -/

/-- The ways to write a number. -/
inductive NumberForm
  | decimal
  | hexadecimal
  | octal
  | binary
  | imaginary
deriving DecidableEq, Repr

def NumberForm.name : NumberForm → String
  | decimal => "decimal"
  | hexadecimal => "hexadecimal"
  | octal => "octal"
  | binary => "binary"
  | imaginary => "imaginary"

/-- What is wrong with the characters of a text. -/
inductive TokenFault
  | null
  | unended (triple : Bool)
  | number (form : NumberForm)
  | digit (d : Char) (form : NumberForm)
  | leadingZeros
  | character (c : Char)
  | unmatched (closing : Char)
  | mismatched (closing opening : Char)
deriving DecidableEq, Repr

/-- A character between single quotes. -/
def inQuotes (c : Char) : String := "'" ++ c.toString ++ "'"

/-- The code of a character, in four capital hexadecimal digits or more. -/
def codeName (c : Char) : String := "U+" ++ (Text.hex 4 c.toNat).toUpper

/-- A closing bracket that answers to another kind of opening bracket. -/
def mismatchMessage (closing opening : Char) : String :=
  "closing parenthesis " ++ inQuotes closing ++ " does not match opening parenthesis " ++
    inQuotes opening

def TokenFault.message : TokenFault → String
  | null => "source code string cannot contain null bytes"
  | unended triple =>
    "unterminated " ++ (if triple then "triple-quoted " else "") ++
      "string literal (detected at line 1)"
  | number form => "invalid " ++ form.name ++ " literal"
  | digit d form => "invalid digit " ++ inQuotes d ++ " in " ++ form.name ++ " literal"
  | leadingZeros =>
    "leading zeros in decimal integer literals are not permitted; " ++
      "use an 0o prefix for octal integers"
  | character c =>
    if Text.isPrintable c then "invalid character " ++ inQuotes c ++ " (" ++ codeName c ++ ")"
    else "invalid non-printable character " ++ codeName c
  | unmatched closing => "unmatched " ++ inQuotes closing
  | mismatched closing opening => mismatchMessage closing opening

/-! ### Quotations -/

/-- The escapes that can be left incomplete. -/
inductive EscapeForm
  | two
  | four
  | eight
  | name
deriving DecidableEq, Repr

/-- What is wrong with an escape. -/
def EscapeForm.message : EscapeForm → String
  | two => "truncated \\xXX escape"
  | four => "truncated \\uXXXX escape"
  | eight => "truncated \\UXXXXXXXX escape"
  | name => "malformed \\N character escape"

/-- What is wrong with the replacement fields of a template. -/
inductive TemplateFault
  | loneClosing
  | noClosing
  | empty
  | nothingBefore (c : Char)
  | backslash
  | comment
  | conversion
  | unmatched (bracket : Char)
  | mismatched (closing opening : Char)
  | unended
deriving DecidableEq, Repr

def TemplateFault.message : TemplateFault → String
  | loneClosing => "f-string: single '\x7d' is not allowed"
  | noClosing => "f-string: expecting '\x7d'"
  | empty => "f-string: empty expression not allowed"
  | nothingBefore c => "f-string: expression required before " ++ inQuotes c
  | backslash => "f-string expression part cannot include a backslash"
  | comment => "f-string expression part cannot include '#'"
  | conversion => "f-string: invalid conversion character: expected 's', 'r', or 'a'"
  | unmatched bracket => "f-string: unmatched " ++ inQuotes bracket
  | mismatched closing opening => "f-string: " ++ mismatchMessage closing opening
  | unended => "f-string: unterminated string"

/-! ### Expressions -/

/-- The kinds of expressions that have a name in a message. -/
inductive Kind
  | name
  | truth (word : String)
  | ellipsis
  | constant
  | template
  | operation
  | comparison
  | conditional
  | assignment
  | call
  | member
  | awaited
  | tuple
  | set
  | table
  | generator
  | setGenerator
  | tableGenerator
  | starred
deriving DecidableEq, Repr

def Kind.text : Kind → String
  | name => "name"
  | truth word => word
  | ellipsis => "ellipsis"
  | constant => "literal"
  | template => "f-string expression"
  | operation => "expression"
  | comparison => "comparison"
  | conditional => "conditional expression"
  | assignment => "named expression"
  | call => "function call"
  | member => "attribute"
  | awaited => "await expression"
  | tuple => "tuple"
  | set => "set display"
  | table => "dict literal"
  | generator => "generator expression"
  | setGenerator => "set comprehension"
  | tableGenerator => "dict comprehension"
  | starred => "starred"

/-- What is wrong with a text that is no expression. -/
inductive Fault
  | token (f : TokenFault)
  | unclosed (opening : Char)
  | looseContinuation
  | malformed
  | wideBytes
  | mixedBytes
  | escape (first last : Nat) (form : EscapeForm)
  | byteEscape (position : Nat)
  | template (f : TemplateFault)
  | missingComma
  | missingElse
  | missingParentheses (name : String)
  | assignmentInCall
  | assignmentTo (kind : Kind)
  | equalsSign (kind : Kind)
  | equalsSignAfterName
  | loneStar
  | star
  | doubleStar
  | starredGenerator
  | looseTarget
  | starredEntry
  | missingEntry
  | missingColon
  | target (kind : Kind)
  | inField (f : Fault)
deriving DecidableEq, Repr

def Fault.message : Fault → String
  | token f => f.message
  | unclosed opening => inQuotes opening ++ " was never closed"
  | looseContinuation => "unexpected character after line continuation character"
  | malformed => "invalid syntax"
  | wideBytes => "bytes can only contain ASCII literal characters"
  | mixedBytes => "cannot mix bytes and nonbytes literals"
  | escape first last form =>
    "(unicode error) 'unicodeescape' codec can't decode bytes in position " ++ toString first ++
      "-" ++ toString last ++ ": " ++ form.message
  | byteEscape position => "(value error) invalid \\x escape at position " ++ toString position
  | template f => f.message
  | missingComma => "invalid syntax. Perhaps you forgot a comma?"
  | missingElse => "expected 'else' after 'if' expression"
  | missingParentheses name =>
    "Missing parentheses in call to '" ++ name ++ "'. Did you mean " ++ name ++ "(...)?"
  | assignmentInCall => "expression cannot contain assignment, perhaps you meant \"==\"?"
  | assignmentTo kind => "cannot use assignment expressions with " ++ kind.text
  | equalsSign kind =>
    "cannot assign to " ++ kind.text ++ " here. Maybe you meant '==' instead of '='?"
  | equalsSignAfterName => "invalid syntax. Maybe you meant '==' or ':=' instead of '='?"
  | loneStar => "Invalid star expression"
  | star => "cannot use starred expression here"
  | doubleStar => "cannot use double starred expression here"
  | starredGenerator => "iterable unpacking cannot be used in comprehension"
  | looseTarget => "did you forget parentheses around the comprehension target?"
  | starredEntry => "cannot use a starred expression in a dictionary value"
  | missingEntry => "expression expected after dictionary key and ':'"
  | missingColon => "':' expected after dictionary key"
  | target kind => "cannot assign to " ++ kind.text
  | inField (token f) => f.message
  | inField f => "f-string: " ++ f.message

end Flowchart.Literal
