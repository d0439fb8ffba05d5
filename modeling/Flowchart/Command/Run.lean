import Flowchart.Canvas.Preview
import Flowchart.Command.Listing
import Flowchart.Command.Options
import Flowchart.Diagram.Patch
import Flowchart.Element.Synthesis
import Flowchart.Random.Generator
import Flowchart.Server.Client
import Flowchart.Text.Utf8

/-! # Commands

A run of the program reads its texts, writes to its output and exchanges requests with a server; a
host stands for all that is outside.  Errors that a user can mend are written to the output and end
the run with code 1.  `Outcome` holds how a run ended, what it wrote and what it requested. -/

namespace Flowchart.Command

/-! ### Host -/

/-- An error of the operating system, by its number and its wording. -/
structure SystemFault where
  number : Nat
  wording : String
deriving DecidableEq, Repr

def SystemFault.message (f : SystemFault) : String :=
  "[Errno " ++ toString f.number ++ "] " ++ f.wording

/-- Why a file cannot be read: it is not opened, or reading it breaks off. -/
inductive FileFault
  | unopened (fault : SystemFault)
  | unread (fault : SystemFault)
deriving DecidableEq, Repr

namespace FileFault

def missing : FileFault := unopened ⟨2, "No such file or directory"⟩

def isDirectory : FileFault := unopened ⟨21, "Is a directory"⟩

def notDirectory : FileFault := unopened ⟨20, "Not a directory"⟩

/-- The wording of a fault; only a file that is not opened is named. -/
def message (path : String) : FileFault → String
  | unopened fault => fault.message ++ ": " ++ Text.quoted path
  | unread fault => fault.message

end FileFault

/-- Why standard input gives no text: reading it breaks off, or its bytes cannot be decoded. -/
inductive InputFault
  | unread (fault : SystemFault)
  | encoding (reason : String)
deriving DecidableEq, Repr

def InputFault.message : InputFault → String
  | unread fault => fault.message
  | encoding reason => reason

/-- What a run finds outside: standard input, files, the address in the environment, the server, and
the random numbers of a run without a seed. -/
structure Host where
  input : Except InputFault String
  file : String → Except FileFault (List UInt8)
  env : Option String
  peer : Server.Peer
  chance : Nat → Nat

/-! ### Runs -/

/-- How a run can fail. -/
inductive RunError
  | input (fault : InputFault)
  | file (path : String) (fault : FileFault)
  | encoding (path : String) (fault : Text.Utf8.Fault)
  | noPath
  | nullInPath
  | noSeed
  | parse (e : ParseError)
  | preview (o : Overflow)
  | address (address : String)
  | sync (e : Server.SyncError)
  | nesting (reason : String)
  | markup (e : Markup.Error)
  | count (fault : Server.CountFault)
  | arithmetic (e : ArithmeticError)
  | unprintable
deriving DecidableEq, Repr

namespace RunError

def message : RunError → String
  | input fault => fault.message
  | file path fault => fault.message path
  | encoding path fault =>
    "Diagram file is not valid UTF-8 (" ++ fault.reason.message ++ " at byte " ++
      toString fault.position ++ "): " ++ path
  | noPath => "expected str, bytes or os.PathLike object, not list"
  | nullInPath => "embedded null byte"
  | noSeed =>
    "The only supported seed types are: None,\nint, float, str, bytes, and bytearray."
  | parse e => e.message
  | preview o => o.message
  | address a => Server.schemeMissing a
  | sync e => e.message
  | nesting reason => reason
  | markup e => e.message
  | count fault => fault.message
  | arithmetic e => e.message
  | unprintable => Server.integerTooLong

/-- An error that is reported to the user; the others end the run where they arise. -/
def isReported : RunError → Bool
  | input (.encoding _) | noPath | nullInPath | noSeed => false
  | nesting _ | markup _ | count _ | arithmetic _ | unprintable => false
  | _ => true

/-- The error of a conversion. -/
def ofConversion : ConversionError → RunError
  | .parse e => parse e
  | .arithmetic e => arithmetic e

def ofPreview : PreviewError → RunError
  | .overflow o => preview o
  | .arithmetic e => arithmetic e

def ofListing : ListingError → RunError
  | .markup e => markup e
  | .arithmetic e => arithmetic e

/-- The error of a request. -/
def ofServer : Server.Failure → RunError
  | .address a => address a
  | .sync e => sync e
  | .nesting reason => nesting reason
  | .count fault => count fault
  | .arithmetic e => arithmetic e
  | .unprintable => unprintable

end RunError

/-- What a run has done so far. -/
structure Trace where
  output : String
  requests : List Server.Request

/-- A step of a run. -/
abbrev Step := ExceptT RunError (StateM Trace)

namespace Step

/-- A step that does nothing but compute. -/
def ofExcept {ε α : Type} (wrap : ε → RunError) : Except ε α → Step α
  | .ok a => pure a
  | .error e => throw (wrap e)

def writeLine (line : String) : Step Unit :=
  modify fun t => { t with output := t.output ++ line ++ "\n" }

def writeLines (lines : List String) : Step Unit := lines.forM writeLine

/-- Writes what a marked text shows. -/
def writeMarked (marked : String) : Step Unit := do
  writeLine (← ofExcept .markup (Markup.shownText marked))

/-- Carries out an exchange and keeps its requests. -/
def ofExchange {α : Type} (x : Server.Exchange Server.Failure α) : Step α := do
  let (result, requests) := x.outcome
  modify fun t => { t with requests := t.requests ++ requests }
  ofExcept .ofServer result

end Step

/-! ### Reading texts -/

/-- The operand that stands for standard input. -/
def standardInput : String := "-"

/-- The text of an operand; `used` says that standard input has been read. -/
def readText (h : Host) (used : Bool) : Option String → Except RunError String
  | none => .error .noPath
  | some path =>
    if path = standardInput then (if used then .ok "" else h.input.mapError .input)
    else if path.toList.contains '\x00' then .error .nullInPath
    else match h.file path with
      | .error fault => .error (.file path fault)
      | .ok bytes => (Text.Utf8.decode bytes).mapError (.encoding path)

/-! ### Converting -/

/-- The elements of a file, with seeds from the seed among the options or else from the host. -/
def convertFile (h : Host) (s : Settled) (file : String) : Except RunError (List Element) :=
  match s.seed with
  | .nothing => .error .noSeed
  | .number n => do
    let text ← readText h false (some file)
    ((convert text .standard Twister.generator (Twister.seeded n)).map Prod.fst).mapError
      .ofConversion
  | .host => do
    let text ← readText h false (some file)
    ((convert text .standard (.ofStream h.chance) 0).map Prod.fst).mapError .ofConversion

/-- The count of shapes and connectors. -/
def summary (elements : List Element) : String :=
  let shapes := (elements.filterMap Element.shape?).length
  toString shapes ++ " shape(s), " ++ toString (elements.length - shapes) ++ " connector(s)"

def listJson (elements : List Element) : Step Unit := do
  let records ← Step.ofExcept .arithmetic (elements.mapM Element.record)
  Step.writeLine (Json.array records).pretty

def listTable (elements : List Element) : Step Unit := do
  Step.writeLines (← Step.ofExcept .ofListing (elementTable elements))
  Step.writeMarked ("[green]" ++ summary elements ++ "[/green]")

def previewStyle : String := "unicode"

def showPreview (elements : List Element) : Step Unit := do
  let marked ← Step.ofExcept .ofPreview (preview elements previewStyle true)
  Step.writeLines (← Step.ofExcept .markup (previewPanel marked))

/-- How a run reaches the server. -/
def accessOf (h : Host) (s : Settled) : Server.Access := ⟨s.server, h.env, .standard, h.peer⟩

/-- Submits elements to a healthy server. -/
def publishElements (h : Host) (s : Settled) (elements : List Element) : Step Unit := do
  let access := accessOf h s
  let health ← Step.ofExchange access.checkHealth
  if !health.isHealthy then throw (.sync (.unhealthy health.status))
  let receipt ← Step.ofExchange (access.publish elements)
  Step.writeMarked ("[green]Published " ++ toString receipt.count ++ " element(s)[/green]")

def runConvert (h : Host) (file : String) (s : Settled) : Step Nat := do
  let elements ← Step.ofExcept id (convertFile h s file)
  if s.json then listJson elements else listTable elements
  if s.preview then showPreview elements
  if s.publish then publishElements h s elements
  return 0

/-! ### Comparing -/

/-- The label of an edge in brackets. -/
def labelNote : Option String → String
  | none => ""
  | some label => if label = "" then "" else " (" ++ Markup.escape label ++ ")"

/-- A line of a comparison in a colour. -/
def coloured (colour line : String) : String :=
  "[" ++ colour ++ "]" ++ line ++ "[/" ++ colour ++ "]"

def edgeLine (sign : String) (k : EdgeKey) : String :=
  sign ++ " edge " ++ k.source ++ " -> " ++ k.target ++ labelNote k.label

def changeLine (c : NodeChange) : String :=
  "~ node " ++ c.id ++ ": " ++ Markup.escape c.before ++ " -> " ++ Markup.escape c.after

/-- The lines of a comparison, with their tags. -/
def patchLines (p : Patch) : List String :=
  p.addedNodes.map (fun id => coloured "green" ("+ node " ++ id)) ++
  p.removedNodes.map (fun id => coloured "red" ("- node " ++ id)) ++
  p.changedNodes.map (fun c => coloured "yellow" (changeLine c)) ++
  p.addedEdges.map (fun k => coloured "green" (edgeLine "+" k)) ++
  p.removedEdges.map (fun k => coloured "red" (edgeLine "-" k))

def readDiagram (h : Host) (used : Bool) (operand : Option String) : Except RunError Diagram := do
  (Diagram.ofText (← readText h used operand)).mapError .parse

/-- Compares two files; the code tells whether they differ. -/
def runCompare (h : Host) (old : String) (new : Option String) : Step Nat := do
  let before ← Step.ofExcept id (readDiagram h false (some old))
  let after ← Step.ofExcept id (readDiagram h (old == standardInput) new)
  let p := Patch.between before after
  if p.hasChanges then
    (patchLines p).forM Step.writeMarked
    return 1
  else
    Step.writeMarked (coloured "green" "No structural changes")
    return 0

/-! ### Outcomes -/

/-- How a run ends: with a code, with help or a usage error, or where an error arises that is not
reported. -/
inductive Ending
  | exit (code : Nat)
  | stop (s : Stop)
  | failure (e : RunError)
deriving DecidableEq, Repr

/-- How a run ended, what it wrote and what it requested. -/
structure Outcome where
  ending : Ending
  output : String
  requests : List Server.Request
deriving DecidableEq, Repr

/-- The code of a run that is stopped by its command line. -/
def Stop.code : Stop → Nat
  | help => 0
  | usage => 2

/-- The code of a run; an error that is not reported gives the code 1. -/
def Ending.code : Ending → Nat
  | exit code => code
  | stop s => s.code
  | failure _ => 1

/-- A task as a step. -/
def Task.step (h : Host) : Task → Step Nat
  | convert file s => runConvert h file s
  | compare old new => runCompare h old new

def report (e : RunError) : Step Nat := do
  if e.isReported then
    Step.writeMarked ("[bold red]Error:[/bold red] " ++ Markup.escape e.message)
    return 1
  else throw e

/-- The outcome of a step from the start. -/
def outcomeOf (step : Step Nat) : Outcome :=
  match (step.run).run ⟨"", []⟩ with
  | (.ok code, t) => ⟨.exit code, t.output, t.requests⟩
  | (.error e, t) => ⟨.failure e, t.output, t.requests⟩

/-- The run of a command line. -/
def run (h : Host) (arguments : List String) : Outcome :=
  match Task.ofCommandLine arguments with
  | .error s => ⟨.stop s, "", []⟩
  | .ok task => outcomeOf (tryCatch (task.step h) report)

end Flowchart.Command
