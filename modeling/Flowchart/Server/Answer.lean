import Flowchart.Json
import Flowchart.Text.Numeral

/-! # Answers of the canvas server

The server answers a batch with a receipt and a question for its health with a status.  Both are
read from JSON objects (`Receipt.ofMembers`, `Health.ofMembers`); a fault says what is missing. -/

namespace Flowchart.Server

/-- The ways in which a value is no count. -/
inductive CountFault
  | numeral (text : String) (fault : Text.NumeralFault)
  | array
  | object
  | arithmetic (e : ArithmeticError)
deriving DecidableEq, Repr

namespace CountFault

/-- The most characters that a message shows of a quoted text. -/
def shownLength : Nat := 200

/-- A text in quotes, cut after the characters that a message shows. -/
def shownText (text : String) : String :=
  String.ofList ((Text.quoted text).toList.take shownLength)

def message : CountFault → String
  | numeral text .malformed => "invalid literal for int() with base 10: " ++ shownText text
  | numeral _ (.tooLong digits) =>
    "Exceeds the limit (" ++ toString Text.maxNumeralDigits ++
      " digits) for integer string conversion: value has " ++ toString digits ++
      " digits; use sys.set_int_max_str_digits() to increase the limit"
  | array =>
    "int() argument must be a string, a bytes-like object or a real number, not 'list'"
  | object =>
    "int() argument must be a string, a bytes-like object or a real number, not 'dict'"
  | arithmetic e => e.message

/-- A value of the right sort that stands for no count, as against one of another sort. -/
def isBadValue : CountFault → Bool
  | numeral _ _ => true
  | arithmetic .nanToInteger => true
  | _ => false

end CountFault

/-- The count that a value stands for; null stands for none. -/
def count? : Json → Except CountFault (Option Int)
  | .null => .ok none
  | .bool b => .ok (some (if b then 1 else 0))
  | .number x => (x.toInt.mapError .arithmetic).map some
  | .string s => ((Text.readInteger s).mapError (.numeral s)).map some
  | .array _ => .error .array
  | .object _ => .error .object

/-- The ways in which an object is no answer. -/
inductive AnswerFault
  | rejected (error : String)
  | noElements
  | noId
  | noStatus
  | count (fault : CountFault)
deriving DecidableEq, Repr

def AnswerFault.message : AnswerFault → String
  | rejected error => "Canvas server rejected batch: " ++ error
  | noElements => "Batch response must include iterable 'elements'."
  | noId => "Every created element must include an 'id'."
  | noStatus => "Health response must include 'status'."
  | count fault => fault.message

/-- The value of a key, null if it is missing. -/
def member (key : String) (members : List (String × Json)) : Json :=
  (Json.get? key members).getD .null

/-! ### Receipts -/

/-- What the server created for a batch. -/
structure Receipt where
  count : Int
  ids : List String
deriving DecidableEq, Repr

/-- The id of a created element. -/
def idOf? : Json → Option String
  | .object members => (Json.get? "id" members).map Json.display
  | _ => none

/-- The ids of created elements.  An object has keys and no elements, so it gives ids only if it is
empty. -/
def idsOf : Json → Except AnswerFault (List String)
  | .array items =>
    match items.mapM idOf? with
    | some ids => .ok ids
    | none => .error .noId
  | .object [] => .ok []
  | .object _ => .error .noId
  | _ => .error .noElements

/-- The error that a rejection shows. -/
def rejection (members : List (String × Json)) : String :=
  let error := member "error" members
  if error.isTruthy then error.display else "unknown error"

/-- The receipt that an object stands for. -/
def Receipt.ofMembers (members : List (String × Json)) : Except AnswerFault Receipt := do
  if !(member "success" members).isTruthy then throw (.rejected (rejection members))
  let ids ← idsOf (member "elements" members)
  let count ← (count? (member "count" members)).mapError .count
  return ⟨count.getD ids.length, ids⟩

/-! ### Health -/

/-- The status of the server, and the number of its elements if it says so. -/
structure Health where
  status : String
  elements : Option Int
deriving DecidableEq, Repr

/-- The status of a server that takes batches. -/
def healthyStatus : String := "healthy"

/-- The server takes batches. -/
def Health.isHealthy (h : Health) : Bool := h.status == healthyStatus

/-- The health that an object stands for. -/
def Health.ofMembers (members : List (String × Json)) : Except AnswerFault Health :=
  match Json.get? "status" members with
  | none => .error .noStatus
  | some status => do
    let elements ← (count? (member "elements_count" members)).mapError .count
    return ⟨status.display, elements⟩

end Flowchart.Server
