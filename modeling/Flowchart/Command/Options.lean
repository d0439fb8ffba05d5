import Flowchart.Text.Numeral

/-! # Options of the command line

A command line names a command and gives it operands and options.  Long options may be shortened as
long as one meaning is left, values follow an option or an equals sign, short options may be joined,
and after the separator `--` everything is an operand.  Arguments are first read as tokens
(`Grammar.token`) and the tokens then taken in order, so that a request for help counts only if
nothing before it is wrong.

The separator itself stands for no text.  As the value of an option it gives nothing, and so it does
as an operand, unless the separator stands right before it (`operandOf`). -/

namespace Flowchart.Command

inductive OptionName
  | help
  | verbose
  | json
  | preview
  | seed
  | publish
  | server
deriving DecidableEq, Repr

def OptionName.takesValue : OptionName → Bool
  | seed | server => true
  | _ => false

/-- The options that a command knows, by their spellings. -/
abbrev Grammar := List (String × OptionName)

/-- How reading a command line ends without a command: with help or with a usage error. -/
inductive Stop
  | help
  | usage
deriving DecidableEq, Repr

/-- What stands behind an option in the same argument: nothing, a value after an equals sign, or
letters that are joined to a short option, an equals sign before the first of them or not. -/
inductive Attached
  | nothing
  | value (text : String)
  | letters (text : List Char)
deriving DecidableEq, Repr

/-- What an argument means. -/
inductive Token
  | operand (text : String)
  | option (name : OptionName) (attached : Attached)
  | unknown
  | separator
deriving DecidableEq, Repr

/-- The argument after which everything is an operand. -/
def separator : String := "--"

/-- A text cut at its first equals sign. -/
def cutAtEquals (s : List Char) : List Char × Attached :=
  match s.dropWhile (· != '=') with
  | [] => (s, .nothing)
  | _ :: value => (s.takeWhile (· != '='), .value (String.ofList value))

/-- A negative number, whole or with a point, is an operand though it starts with a dash; a line
feed may end it. -/
def isNegativeNumber (s : List Char) : Bool :=
  match s with
  | '-' :: rest =>
    let body := if rest.getLast? = some '\n' then rest.dropLast else rest
    let isDigit (c : Char) : Bool := (Text.digitValue? c).isSome
    match body.dropWhile isDigit with
    | [] => !body.isEmpty
    | '.' :: fraction => !fraction.isEmpty && fraction.all isDigit
    | _ => false
  | _ => false

namespace Grammar

/-- The option with exactly this spelling. -/
def spelled? (g : Grammar) (spelling : String) : Option OptionName := g.lookup spelling

/-- What a long option can mean that is not written in full. -/
def longMeanings (g : Grammar) (s : List Char) : List Token :=
  let (start, attached) := cutAtEquals s
  (g.filter fun (spelling, _) => start.isPrefixOf spelling.toList).map fun (_, name) =>
    .option name attached

/-- What an argument with one dash can mean: a short option with letters joined to it. -/
def shortMeanings (g : Grammar) (s : List Char) : List Token :=
  g.filterMap fun (spelling, name) =>
    if spelling.toList = s.take 2 then some (.option name (.letters (s.drop 2)))
    else if s.isPrefixOf spelling.toList then some (.option name .nothing)
    else none

/-- The meaning of an argument that starts with a dash and is no option in full. -/
def dashed (g : Grammar) (s : List Char) : Except Stop Token :=
  let (start, attached) := cutAtEquals s
  match attached, g.spelled? (String.ofList start) with
  | .value text, some name =>
    .ok (.option name (if start.length = 2 then .letters text.toList else .value text))
  | _, _ =>
    match if s.take 2 = ['-', '-'] then g.longMeanings s else g.shortMeanings s with
    | [meaning] => .ok meaning
    | _ :: _ => .error .usage
    | [] =>
      if isNegativeNumber s || s.contains ' ' then .ok (.operand (String.ofList s))
      else .ok .unknown

/-- The meaning of an argument before the separator. -/
def token (g : Grammar) (argument : String) : Except Stop Token :=
  match argument.toList with
  | '-' :: rest =>
    match g.spelled? argument with
    | some name => .ok (.option name .nothing)
    | none => if rest = [] then .ok (.operand argument) else g.dashed ('-' :: rest)
  | _ => .ok (.operand argument)

/-- The meanings of arguments. -/
def tokens (g : Grammar) : List String → Except Stop (List Token)
  | [] => .ok []
  | argument :: rest =>
    if argument = separator then .ok (.separator :: rest.map .operand)
    else do
      let t ← g.token argument
      return t :: (← g.tokens rest)

end Grammar

/-! ### The options of a command -/

/-- Where seeds come from: the host, a number, or nothing. -/
inductive SeedSource
  | host
  | number (n : Int)
  | nothing
deriving DecidableEq, Repr

/-- What the options of a command ask for. -/
structure Settled where
  json : Bool
  preview : Bool
  seed : SeedSource
  publish : Bool
  server : Option String
deriving DecidableEq, Repr

namespace Settled

/-- What holds without options. -/
def standard : Settled := ⟨false, false, .host, false, none⟩

/-- Takes an option without a value. -/
def flag (s : Settled) : OptionName → Except Stop Settled
  | .help => .error .help
  | .json => .ok { s with json := true }
  | .preview => .ok { s with preview := true }
  | .publish => .ok { s with publish := true }
  | _ => .ok s

/-- Takes an option with a value; a seed is an integer numeral. -/
def value (s : Settled) (text : String) : OptionName → Except Stop Settled
  | .seed =>
    if text = separator then .ok { s with seed := .nothing }
    else match Text.readInteger text with
      | .ok n => .ok { s with seed := .number n }
      | .error _ => .error .usage
  | .server => .ok { s with server := if text = separator then none else some text }
  | _ => .ok s

end Settled

/-- The options that letters joined to a short option name, in order. -/
def joined (g : Grammar) : List Char → Except Stop (List OptionName)
  | [] => .ok []
  | c :: rest =>
    match g.spelled? (String.ofList ['-', c]) with
    | none => .error .usage
    | some name => do return name :: (← joined g rest)

/-- What stands right before a token: an operand, perhaps with the separator behind it, the
separator without an operand before it, or neither. -/
inductive Neighbour
  | operand
  | separator
  | other
deriving DecidableEq, Repr

/-- The operand that an argument makes. -/
def operandOf (before : Neighbour) (text : String) : Option String :=
  if text = separator ∧ before ≠ .separator then none else some text

/-- What has been read of the arguments of a command: the options, the operands, and whether
something was left over. -/
structure Reading where
  settled : Settled
  operands : List (Option String)
  leftOver : Bool

namespace Reading

/-- What has been read of no arguments. -/
def start : Reading := ⟨.standard, [], false⟩

/-- Takes an option that takes no value; other short options may be joined to it. -/
def takeFlag (g : Grammar) (r : Reading) (name : OptionName) : Attached → Except Stop Reading
  | .nothing => do return { r with settled := ← r.settled.flag name }
  | .value _ | .letters [] => .error .usage
  | .letters text => do
    let names ← joined g text
    return { r with settled := ← (name :: names).foldlM Settled.flag r.settled }

/-- Takes tokens in order.  A separator belongs to the operand before or after it and is left over
if there is neither. -/
def take (g : Grammar) (before : Neighbour) (r : Reading) : List Token → Except Stop Reading
  | [] => .ok r
  | .operand text :: rest =>
    take g .operand { r with operands := r.operands ++ [operandOf before text] } rest
  | .unknown :: rest => take g .other { r with leftOver := true } rest
  | .separator :: rest =>
    if before = .operand then take g .operand r rest
    else take g .separator { r with leftOver := r.leftOver || rest.isEmpty } rest
  | .option name attached :: rest =>
    if name.takesValue then
      match attached, rest with
      | .value text, rest => do
        take g .other { r with settled := ← r.settled.value text name } rest
      | .nothing, .operand text :: rest => do
        take g .other { r with settled := ← r.settled.value text name } rest
      | _, _ => .error .usage
    else do take g .other (← r.takeFlag g name attached) rest

end Reading

/-- The options and operands of a command that takes a number of operands. -/
def readArguments (g : Grammar) (operands : Nat) (arguments : List String) :
    Except Stop (Settled × List (Option String)) := do
  let r ← Reading.take g .other .start (← g.tokens arguments)
  if r.operands.length = operands ∧ r.leftOver = false then return (r.settled, r.operands)
  else throw .usage

/-! ### Commands -/

/-- What a command line asks for.  The second of two texts to compare may be missing. -/
inductive Task
  | convert (file : String) (settled : Settled)
  | compare (old : String) (new : Option String)
deriving DecidableEq, Repr

/-- The options before a command. -/
def programGrammar : Grammar :=
  [("-h", .help), ("--help", .help), ("--verbose", .verbose), ("-v", .verbose)]

def convertGrammar : Grammar :=
  [("-h", .help), ("--help", .help), ("--json", .json), ("--preview", .preview),
   ("--seed", .seed), ("--publish", .publish), ("--server", .server)]

def compareGrammar : Grammar := [("-h", .help), ("--help", .help)]

def Task.ofArguments (name : String) (arguments : List String) : Except Stop Task := do
  match name with
  | "convert" =>
    match ← readArguments convertGrammar 1 arguments with
    | (settled, [some file]) => return .convert file settled
    | _ => throw .usage
  | "diff" =>
    match ← readArguments compareGrammar 2 arguments with
    | (_, [some old, new]) => return .compare old new
    | _ => throw .usage
  | _ => throw .usage

/-- Reads the options before the command, and the command.  Tokens and arguments are those of the
same places. -/
def readProgram (r : Reading) : List Token → List String → Except Stop Task
  | .option name attached :: tokens, _ :: arguments => do
    readProgram (← r.takeFlag programGrammar name attached) tokens arguments
  | .unknown :: tokens, _ :: arguments => readProgram { r with leftOver := true } tokens arguments
  | .operand name :: _, _ :: arguments => do
    let task ← Task.ofArguments name arguments
    if r.leftOver then throw .usage else return task
  | _, _ => .error .usage

def Task.ofCommandLine (arguments : List String) : Except Stop Task := do
  readProgram .start (← programGrammar.tokens arguments) arguments

end Flowchart.Command
