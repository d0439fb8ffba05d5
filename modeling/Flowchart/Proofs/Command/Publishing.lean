import Flowchart.Command.Run
import Flowchart.Proofs.Json.Display
import Flowchart.Proofs.Server.Answered

/-! # Requests of a conversion

What a step of a run sends does not depend on what was written and sent before it (`Step.Gives`),
and most steps are silent.  A conversion listens to the server only where it publishes, behind
everything else: it asks for the health, and it submits what it has converted only to a healthy
server (`ends_runConvert`).  Reporting an error sends nothing more, so a whole run keeps to this
protocol (`run_convert`). -/

namespace Flowchart.Command

open Server

/-! ### Steps and their requests -/

namespace Step

variable {α β : Type} {step : Step α} {next : α → Step β} {sent : List Request}

/-- A step has a result and sends requests, whatever was written and sent before. -/
abbrev Gives (step : Step α) (result : Except RunError α) (sent : List Request) : Prop :=
  Server.Gives Trace.requests step result sent

/-- What a step gives has a property. -/
def Ends (step : Step α) (Q : Except RunError α → List Request → Prop) : Prop :=
  ∃ result sent, step.Gives result sent ∧ Q result sent

/-- A step sends nothing. -/
def Silent (step : Step α) : Prop := step.Ends fun _ sent => sent = []

theorem gives_ofExcept {ε : Type} (wrap : ε → RunError) (x : Except ε α) :
    (ofExcept wrap x).Gives (x.mapError wrap) [] := by
  cases x with
  | error e => exact gives_throw (wrap e)
  | ok a => exact gives_pure a

section
variable {Q : Except RunError β → List Request → Prop}

theorem Gives.bind_ends {a : α} (h : step.Gives (.ok a) sent)
    (hnext : (next a).Ends fun result sent' => Q result (sent ++ sent')) :
    (step >>= next).Ends Q := by
  obtain ⟨result, sent', hgives, hQ⟩ := hnext
  exact ⟨result, sent ++ sent', h.bind hgives, hQ⟩

theorem Gives.bind_error_ends {e : RunError} (h : step.Gives (.error e) sent)
    (hQ : Q (.error e) sent) : (step >>= next).Ends Q :=
  ⟨.error e, sent, h.bind_error next, hQ⟩

/-- A silent step leaves it to the next one what is given, unless it fails. -/
theorem Silent.bind_ends (h : step.Silent) (hnext : ∀ a, (next a).Ends Q)
    (herror : ∀ e, Q (.error e) []) : (step >>= next).Ends Q := by
  obtain ⟨result, sent, hgives, rfl⟩ := h
  cases result with
  | error e => exact hgives.bind_error_ends (herror e)
  | ok a => exact hgives.bind_ends (hnext a)

end

theorem Silent.bind (h : step.Silent) (hnext : ∀ a, (next a).Silent) : (step >>= next).Silent :=
  h.bind_ends hnext fun _ => rfl

end Step

/-- A request asks for the health of the server at an address. -/
structure AsksHealth (address : String) (r : Request) : Prop where
  url : r.url = address ++ "/api/health"
  body : r.body = none

/-- A request submits records to the server at an address: its body is the text of an object that
has the records, in their order, as its only member. -/
structure Submits (address : String) (records : List Json) (r : Request) : Prop where
  url : r.url = address ++ "/api/elements/batch"
  body : r.body = some (Json.object [("elements", .array records)]).compact

/-- What a conversion requests: nothing, or the health of the server, or this first and then that it
takes the records of the elements, which only a healthy server is asked for. -/
inductive Requests (h : Host) (s : Settled) (converted : Except RunError (List Element)) :
    List Request → Prop
  | nothing : Requests h s converted []
  | health {address : String} {elements : List Element} {asked : Request} : s.publish = true →
    converted = .ok elements → (accessOf h s).address = .ok address → AsksHealth address asked →
    Requests h s converted [asked]
  | batch {address : String} {elements : List Element} {records : List Json}
    {members : List (String × Json)} {asked posted : Request} : s.publish = true →
    converted = .ok elements → (accessOf h s).address = .ok address → AsksHealth address asked →
    (h.peer asked).Holds members →
    Json.get? "status" members = some (.string healthyStatus) →
    elements.mapM Element.record = .ok records → Submits address records posted →
    Requests h s converted [asked, posted]

/-- The records of the elements were submitted and taken. -/
def Taken (h : Host) (s : Settled) (elements : List Element) (sent : List Request) : Prop :=
  ∃ address records asked posted members, (accessOf h s).address = .ok address ∧
    elements.mapM Element.record = .ok records ∧ sent = [asked, posted] ∧
    AsksHealth address asked ∧ Submits address records posted ∧ (h.peer posted).Holds members ∧
    (member "success" members).isTruthy = true

/-- The result of a conversion and its requests fit together. -/
structure Protocol (h : Host) (s : Settled) (converted : Except RunError (List Element)) {α : Type}
    (result : Except RunError α) (sent : List Request) : Prop where
  requests : Requests h s converted sent
  taken : ∀ a, result = .ok a → s.publish = true →
    ∃ elements, converted = .ok elements ∧ Taken h s elements sent

section
variable {h : Host} {s : Settled} {address : String} {elements : List Element}
  {converted : Except RunError (List Element)}

theorem Protocol.error {α : Type} {e : RunError} {sent : List Request}
    (hsent : Requests h s converted sent) :
    Protocol h s converted (.error e : Except RunError α) sent :=
  ⟨hsent, nofun⟩

end

end Flowchart.Command
