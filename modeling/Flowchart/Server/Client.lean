import Flowchart.Element.Basic
import Flowchart.Server.Answer
import Flowchart.Server.Exchange

/-! # Requests to the canvas server

Elements are submitted in one batch and the health of the server is asked for.  A reply is a JSON
object, or it gives an error of the server that says why not.  Three things end a request with an
error that is none of the server: a body that is nested too deeply, a count of another sort in an
answer, and records that cannot be computed or printed.

The address of the server is the one given, else that of the environment, else the standard one;
empty texts count as missing.  It must name one of two schemes, and slashes at its end are
dropped. -/

namespace Flowchart.Server

/-! ### Addresses -/

/-- The address that holds where none is given. -/
def standardAddress : String := "http://localhost:3000"

/-- The name of the environment variable that holds an address. -/
def addressVariable : String := "CANVAS_SERVER_URL"

/-- What an address may start with. -/
def schemes : List String := ["http://", "https://"]

def hasScheme (address : String) : Bool :=
  schemes.any fun scheme => scheme.toList.isPrefixOf address.toList

def dropSlashes (address : String) : String :=
  String.ofList (Text.dropEndWhile (· == '/') address.toList)

/-- A text, unless it is missing or empty. -/
def nonempty? : Option String → Option String
  | some s => if s = "" then none else some s
  | none => none

/-- The address that counts, still unchecked. -/
def chosenAddress (given env : Option String) : String :=
  (nonempty? given <|> nonempty? env).getD standardAddress

/-- The address for requests, or the one that has no scheme. -/
def resolve (given env : Option String) : Except String String :=
  let address := chosenAddress given env
  if hasScheme address then .ok (dropSlashes address) else .error address

def schemeMissing (address : String) : String :=
  "Canvas server URL must be http(s): " ++ Text.quoted address

/-! ### Errors -/

/-- The ways in which the server does not do what it is asked for. -/
inductive SyncError
  | nothingToPublish
  | unreachable (url reason : String)
  | refused (status : Int) (text : String)
  | undecodable (reason : String)
  | notObject
  | badAnswer (fault : AnswerFault)
  | unhealthy (status : String)
deriving DecidableEq, Repr

def SyncError.message : SyncError → String
  | nothingToPublish => "Nothing to publish: element list is empty."
  | unreachable url reason => "Could not reach canvas server at " ++ url ++ ": " ++ reason
  | refused status text =>
    let shown := Text.trimmed text
    "Canvas server error " ++ toString status ++ ": " ++
      (if shown = "" then "no message" else shown)
  | undecodable reason => "Failed to decode canvas server response: " ++ reason
  | notObject => "Canvas server response must be a JSON object."
  | badAnswer fault => fault.message
  | unhealthy status => "Canvas server is not healthy: " ++ status

/-- The ways in which a request fails: no address, an error of the server, a body that is nested too
deeply, a count of another sort in an answer, an element without a record, or a record with an
integer that is too long to print. -/
inductive Failure
  | address (address : String)
  | sync (e : SyncError)
  | nesting (reason : String)
  | count (fault : CountFault)
  | arithmetic (e : ArithmeticError)
  | unprintable
deriving DecidableEq, Repr

/-- The wording for an integer that is too long to print. -/
def integerTooLong : String :=
  "Exceeds the limit (" ++ toString Text.maxNumeralDigits ++
    " digits) for integer string conversion; use sys.set_int_max_str_digits() to increase the limit"

def Failure.message : Failure → String
  | address a => schemeMissing a
  | sync e => e.message
  | nesting reason => reason
  | count fault => fault.message
  | arithmetic e => e.message
  | unprintable => integerTooLong

/-- The failure that a fault of an answer makes. -/
def AnswerFault.failure : AnswerFault → Failure
  | .count fault => if fault.isBadValue then .sync (.badAnswer (.count fault)) else .count fault
  | fault => .sync (.badAnswer fault)

/-! ### Requests -/

/-- How long requests wait: the standard time, another one, or for ever. -/
inductive Wait
  | standard
  | limit (time : Number)
  | unlimited
deriving DecidableEq, Repr

/-- The timeout of a request whose standard one is given. -/
def Wait.timeout (standardTime : Number) : Wait → Option Number
  | standard => some standardTime
  | limit time => some time
  | unlimited => none

/-- How requests are made: the address given, that of the environment, the time to wait, and the
server. -/
structure Access where
  given : Option String
  env : Option String
  wait : Wait
  peer : Peer

namespace Access

def address (a : Access) : Except Failure String := (resolve a.given a.env).mapError .address

/-- The members of the object in a reply to a request. -/
def membersOf (url : String) : Reply → Except Failure (List (String × Json))
  | .unreachable reason => .error (.sync (.unreachable url reason))
  | .response status text body =>
    if 400 ≤ status then .error (.sync (.refused status text))
    else match body with
      | .error (.malformed reason) => .error (.sync (.undecodable reason))
      | .error (.tooDeep reason) => .error (.nesting reason)
      | .ok (.object members) => .ok members
      | .ok _ => .error (.sync .notObject)

/-- Sends a request and reads the object in the reply. -/
def request (a : Access) (r : Request) : Exchange Failure (List (String × Json)) := do
  let reply ← Exchange.send a.peer r
  Exchange.ofExcept (membersOf r.url reply)

def batchPath : String := "/api/elements/batch"

def healthPath : String := "/api/health"

def seconds (n : Int) : Number := .real (.finite n)

def acceptHeaders : List (String × String) := [("Accept", "application/json")]

/-- The headers of a request with a JSON body. -/
def submitHeaders : List (String × String) :=
  acceptHeaders ++ [("Content-Type", "application/json")]

/-- The body that submits records. -/
def batchBody (records : List Json) : String :=
  (Json.object [("elements", .array records)]).compact

/-- Submits records of elements, if they can be printed. -/
def postBatch (a : Access) (records : List Json) : Exchange Failure (List (String × Json)) := do
  let address ← Exchange.ofExcept a.address
  if !records.all Json.prints then throw .unprintable
  a.request ⟨address ++ batchPath, submitHeaders, a.wait.timeout (seconds 30),
    some (batchBody records)⟩

def askHealth (a : Access) : Exchange Failure (List (String × Json)) := do
  let address ← Exchange.ofExcept a.address
  a.request ⟨address ++ healthPath, acceptHeaders, a.wait.timeout (seconds 5), none⟩

/-- Submits elements, one at least, and reads the receipt. -/
def publish (a : Access) (elements : List Element) : Exchange Failure Receipt := do
  if elements.isEmpty then throw (.sync .nothingToPublish)
  let records ← Exchange.ofExcept ((elements.mapM Element.record).mapError .arithmetic)
  let members ← a.postBatch records
  Exchange.ofExcept ((Receipt.ofMembers members).mapError AnswerFault.failure)

/-- Asks for the health of the server and reads it. -/
def checkHealth (a : Access) : Exchange Failure Health := do
  let members ← a.askHealth
  Exchange.ofExcept ((Health.ofMembers members).mapError AnswerFault.failure)

end Access

end Flowchart.Server
