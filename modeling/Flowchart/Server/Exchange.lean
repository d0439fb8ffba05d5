import Flowchart.Json

/-! # Exchanges with the canvas server

A request goes out and a reply comes back, or the server is not reached.  An exchange is a step that
sends requests and may fail; the requests that were sent are kept also when it does. -/

namespace Flowchart.Server

/-- A request.  Without a body it asks for something, with one it submits it; without a timeout it
waits for ever. -/
structure Request where
  url : String
  headers : List (String × String)
  timeout : Option Number
  body : Option String
deriving DecidableEq, Repr

/-- Why the body of a response gives no JSON value: it is written wrong, or its arrays and objects
are nested more deeply than can be read. -/
inductive BodyFault
  | malformed (reason : String)
  | tooDeep (reason : String)
deriving DecidableEq, Repr

/-- What comes back for a request; the body of a response is a JSON value or has a fault. -/
inductive Reply
  | unreachable (reason : String)
  | response (status : Int) (text : String) (body : Except BodyFault Json)

/-- A server answers every request. -/
abbrev Peer := Request → Reply

/-- A step that sends requests and may fail. -/
abbrev Exchange (ε α : Type) := ExceptT ε (StateM (List Request)) α

namespace Exchange

variable {ε α : Type}

def send (peer : Peer) (r : Request) : Exchange ε Reply := do
  modify (· ++ [r])
  return peer r

/-- A step that sends nothing. -/
def ofExcept : Except ε α → Exchange ε α
  | .ok a => pure a
  | .error e => throw e

/-- The result of an exchange, and the requests that it sent. -/
def outcome (x : Exchange ε α) : Except ε α × List Request := StateT.run (ExceptT.run x) []

end Exchange

end Flowchart.Server
