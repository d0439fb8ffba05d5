import Flowchart.Command.Run

/-! # The program

Reads the operands that name files, runs the command line and writes what it wrote.  No server is
reached from here. -/

open Flowchart Flowchart.Command

/-- The bytes of a file, or why there are none. -/
def readBytes (path : String) : IO (Except FileFault (List UInt8)) := do
  try
    let bytes ← IO.FS.readBinFile path
    return .ok bytes.toList
  catch e =>
    match e with
    | .noFileOrDirectory .. => return .error .missing
    | .inappropriateType .. | .illegalOperation .. => return .error .isDirectory
    | .permissionDenied .. => return .error (.unopened ⟨13, "Permission denied"⟩)
    | e => return .error (.unread ⟨5, toString e⟩)

/-- The text of standard input, or why there is none. -/
def readInput : IO (Except InputFault String) := do
  let bytes ← (← IO.getStdin).readBinToEnd
  return match Text.Utf8.decode bytes.toList with
    | .ok text => .ok text
    | .error fault => .error (.encoding fault.reason.message)

/-- The operands that may be read, with their bytes. -/
def readFiles (arguments : List String) :
    IO (List (String × Except FileFault (List UInt8))) := do
  match Task.ofCommandLine arguments with
  | .error _ => return []
  | .ok task =>
    let paths := match task with
      | .convert file _ => [file]
      | .compare old new => old :: new.toList
    (paths.filter (· != standardInput)).mapM fun path => return (path, ← readBytes path)

/-- How a command is called. -/
def usageText : String :=
  "usage: flowchart [-h] [--verbose] convert [--json] [--preview] [--seed N] [--publish]\n" ++
  "                 [--server URL] FILE\n" ++
  "       flowchart [-h] [--verbose] diff OLD NEW\n"

/-- The host that a run of the program finds. -/
def findHost (arguments : List String) : IO Host := do
  let files ← readFiles arguments
  let input ← if arguments.contains standardInput then readInput else pure (.ok "")
  let env ← IO.getEnv Server.addressVariable
  let start ← IO.rand 0 0xFFFFFFFF
  return { input, env, chance := fun i => (mixHash (hash start) (hash i)).toNat,
           file := fun path => (files.lookup path).getD (.error .missing),
           peer := fun _ => .unreachable "no connection" }

def main (arguments : List String) : IO UInt32 := do
  let outcome := run (← findHost arguments) arguments
  IO.print outcome.output
  match outcome.ending with
  | .exit _ => pure ()
  | .stop _ => IO.eprint usageText
  | .failure e => IO.eprintln e.message
  return outcome.ending.code.toUInt32
