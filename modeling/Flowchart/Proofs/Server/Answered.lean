import Flowchart.Proofs.Fallible
import Flowchart.Server.Client

/-! # Errors of the server

The requests of a run are those of its parts, one behind the other (`Gives`).  What comes of a
request is a function of the reply.  The object in the reply is there or an error of the server says
why not, unless the body is nested too deeply to be read (`Access.answered_answerTo_iff`).  A
receipt or the health is read from the object, and what fails there is an error of the server too,
unless it is a count that is no number at all (`Receipt.ofMembers_eq_count_iff`,
`Health.ofMembers_eq_count_iff`).  These two are the only things in a reply that end a request with
anything else (`Access.answered_iff_not_derails`). -/

namespace Flowchart.Server

/-! ### Requests of runs -/

section
variable {σ ε α β : Type} {sentBy : σ → List Request} {x : ExceptT ε (StateM σ) α}
  {f : α → ExceptT ε (StateM σ) β} {sent sent' : List Request}

/-- A run has a result and adds requests to those that its state holds, whatever the state is. -/
def Gives (sentBy : σ → List Request) (x : ExceptT ε (StateM σ) α) (result : Except ε α)
    (sent : List Request) : Prop :=
  ∀ t, ∃ t', (ExceptT.run x).run t = (result, t') ∧ sentBy t' = sentBy t ++ sent

theorem gives_pure (a : α) : Gives sentBy (pure a : ExceptT ε (StateM σ) α) (.ok a) [] :=
  fun t => ⟨t, rfl, (List.append_nil _).symm⟩

theorem gives_throw (e : ε) : Gives sentBy (throw e : ExceptT ε (StateM σ) α) (.error e) [] :=
  fun t => ⟨t, rfl, (List.append_nil _).symm⟩

theorem Gives.bind {a : α} {result : Except ε β} (hx : Gives sentBy x (.ok a) sent)
    (hf : Gives sentBy (f a) result sent') : Gives sentBy (x >>= f) result (sent ++ sent') := by
  intro t
  obtain ⟨t', hrun, hsent⟩ := hx t
  obtain ⟨t'', hrun', hsent'⟩ := hf t'
  refine ⟨t'', ?_, by rw [hsent', hsent, List.append_assoc]⟩
  rw [ExceptT.run_bind, StateT.run_bind, hrun]
  exact hrun'

theorem Gives.bind_error {e : ε} (hx : Gives sentBy x (.error e) sent)
    (f : α → ExceptT ε (StateM σ) β) : Gives sentBy (x >>= f) (.error e) sent := by
  intro t
  obtain ⟨t', hrun, hsent⟩ := hx t
  refine ⟨t', ?_, hsent⟩
  rw [ExceptT.run_bind, StateT.run_bind, hrun]
  rfl

end

/-! ### Outcomes of exchanges -/

namespace Exchange

variable {ε α β : Type}

/-- An exchange has a result and sends requests, whatever was sent before. -/
abbrev Gives (x : Exchange ε α) (result : Except ε α) (sent : List Request) : Prop :=
  Server.Gives id x result sent

theorem gives_ofExcept (x : Except ε α) : (ofExcept x : Exchange ε α).Gives x [] := by
  cases x with
  | error e => exact gives_throw e
  | ok a => exact gives_pure a

theorem gives_send (peer : Peer) (r : Request) :
    (send peer r : Exchange ε Reply).Gives (.ok (peer r)) [r] :=
  fun before => ⟨before ++ [r], rfl, rfl⟩

theorem Gives.bind_ofExcept {x : Exchange ε α} {f : α → Except ε β} {result : Except ε α}
    {sent : List Request} (hx : x.Gives result sent) :
    (x >>= fun a => ofExcept (f a)).Gives (result >>= f) sent := by
  cases result with
  | error e => exact hx.bind_error _
  | ok a =>
      rw [← List.append_nil sent]
      exact hx.bind (f := fun a => ofExcept (f a)) (gives_ofExcept (f a))

theorem Gives.outcome {x : Exchange ε α} {result : Except ε α} {sent : List Request}
    (hx : x.Gives result sent) : x.outcome = (result, sent) := by
  obtain ⟨after, hrun, hsent⟩ := hx []
  obtain rfl : after = sent := hsent
  exact hrun

end Exchange

namespace Access

def healthRequest (a : Access) (address : String) : Request :=
  ⟨address ++ healthPath, acceptHeaders, a.wait.timeout (seconds 5), none⟩

/-- The request that submits records. -/
def batchRequest (a : Access) (address : String) (records : List Json) : Request :=
  ⟨address ++ batchPath, submitHeaders, a.wait.timeout (seconds 30), some (batchBody records)⟩

/-- What is read from the reply to a request: the members of an object. -/
def answerTo (a : Access) (r : Request) : Except Failure (List (String × Json)) :=
  membersOf r.url (a.peer r)

variable {a : Access} {address : String} {elements : List Element} {records : List Json}

theorem gives_request (a : Access) (r : Request) : (a.request r).Gives (a.answerTo r) [r] := by
  unfold request
  exact (Exchange.gives_send a.peer r).bind (Exchange.gives_ofExcept _)

theorem gives_askHealth (h : a.address = .ok address) :
    a.askHealth.Gives (a.answerTo (a.healthRequest address)) [a.healthRequest address] := by
  unfold askHealth
  rw [h]
  exact (Exchange.gives_ofExcept (.ok address)).bind (gives_request a _)

theorem gives_postBatch (h : a.address = .ok address)
    (hprints : ∀ record ∈ records, record.prints = true) :
    (a.postBatch records).Gives (a.answerTo (a.batchRequest address records))
      [a.batchRequest address records] := by
  have hall : records.all Json.prints = true := List.all_eq_true.mpr hprints
  unfold postBatch
  rw [h, hall]
  exact (Exchange.gives_ofExcept (.ok address)).bind (gives_request a _)

/-- Records that cannot be printed are not sent. -/
theorem gives_postBatch_of_not_prints (h : a.address = .ok address)
    (hprints : ¬ ∀ record ∈ records, record.prints = true) :
    (a.postBatch records).Gives (.error .unprintable) [] := by
  have hall : records.all Json.prints = false := by
    rwa [← Bool.not_eq_true, List.all_eq_true]
  unfold postBatch
  rw [h, hall]
  exact (Exchange.gives_ofExcept (.ok address)).bind ((gives_throw _).bind_error _)

theorem outcome_checkHealth (h : a.address = .ok address) : a.checkHealth.outcome =
    (a.answerTo (a.healthRequest address) >>=
      fun members => (Health.ofMembers members).mapError AnswerFault.failure,
      [a.healthRequest address]) := by
  apply Exchange.Gives.outcome
  exact (gives_askHealth h).bind_ofExcept

theorem outcome_publish_of_record_error (hne : elements ≠ []) {e : ArithmeticError}
    (h : elements.mapM Element.record = .error e) :
    (a.publish elements).outcome = (.error (.arithmetic e), []) := by
  apply Exchange.Gives.outcome
  unfold publish
  rw [if_neg (by simpa using hne), h]
  exact (Exchange.gives_ofExcept (.error (Failure.arithmetic e))).bind_error _

theorem outcome_publish_of_not_prints (hne : elements ≠ []) (h : a.address = .ok address)
    (hrecords : elements.mapM Element.record = .ok records)
    (hprints : ¬ ∀ record ∈ records, record.prints = true) :
    (a.publish elements).outcome = (.error .unprintable, []) := by
  apply Exchange.Gives.outcome
  unfold publish
  rw [if_neg (by simpa using hne), hrecords]
  exact (Exchange.gives_ofExcept (.ok records)).bind
    ((gives_postBatch_of_not_prints h hprints).bind_error _)

theorem outcome_publish (hne : elements ≠ []) (h : a.address = .ok address)
    (hrecords : elements.mapM Element.record = .ok records)
    (hprints : ∀ record ∈ records, record.prints = true) : (a.publish elements).outcome =
    (a.answerTo (a.batchRequest address records) >>=
      fun members => (Receipt.ofMembers members).mapError AnswerFault.failure,
      [a.batchRequest address records]) := by
  apply Exchange.Gives.outcome
  unfold publish
  rw [if_neg (by simpa using hne), hrecords]
  exact (Exchange.gives_ofExcept (.ok records)).bind (gives_postBatch h hprints).bind_ofExcept

end Access

/-! ### Errors of the server -/

/-- A request ends well or with an error of the server. -/
def Answered {α : Type} (result : Except Failure α) : Prop :=
  (∃ a, result = .ok a) ∨ ∃ e, result = .error (.sync e)

/-- A value is of a sort that counts have: null, a truth value, a text, or a number that is not
infinite. -/
def HasCountSort : Json → Prop
  | .array _ | .object _ | .number (.real (.infinite _)) => False
  | _ => True

section
variable {α β : Type} {result : Except Failure α} {members : List (String × Json)}

theorem answered_ok (a : α) : Answered (.ok a) := .inl ⟨a, rfl⟩

theorem answered_sync (e : SyncError) : Answered (.error (.sync e) : Except Failure α) :=
  .inr ⟨e, rfl⟩

theorem not_answered_error {e : Failure} (h : ∀ e', e ≠ .sync e') :
    ¬ Answered (.error e : Except Failure α) := by
  rintro (⟨a, ha⟩ | ⟨e', he⟩)
  · cases ha
  · exact h e' (Except.error.inj he)

/-- Two steps are answered if the first one is, and the second one where it is taken. -/
theorem answered_bind_iff {f : α → Except Failure β} : Answered (result >>= f) ↔
    Answered result ∧ ∀ a, result = .ok a → Answered (f a) := by
  constructor
  · intro hbind
    cases result with
    | ok a =>
        refine ⟨answered_ok a, fun a' ha => ?_⟩
        rwa [← Except.ok.inj ha]
    | error e =>
        refine ⟨?_, nofun⟩
        rcases hbind with ⟨b, hb⟩ | ⟨e', he⟩
        · cases hb
        · exact .inr ⟨e', congrArg _ (Except.error.inj he)⟩
  · rintro ⟨⟨a, rfl⟩ | ⟨e, rfl⟩, hf⟩
    · exact hf a rfl
    · exact answered_sync e

/-- A reply is no refusal and its body is nested more deeply than can be read. -/
def Reply.IsTooDeep (reply : Reply) : Prop :=
  ∃ status text reason, reply = .response status text (.error (.tooDeep reason)) ∧ status < 400

theorem Access.answered_answerTo_iff {a : Access} {r : Request} :
    Answered (a.answerTo r) ↔ ¬ (a.peer r).IsTooDeep := by
  unfold answerTo membersOf Reply.IsTooDeep
  cases a.peer r with
  | unreachable reason => exact iff_of_true (answered_sync _) nofun
  | response status text body =>
      dsimp only
      by_cases hstatus : 400 ≤ status
      · rw [if_pos hstatus]
        refine iff_of_true (answered_sync _) ?_
        rintro ⟨_, _, _, hreply, hlt⟩
        obtain ⟨rfl, -, -⟩ := Reply.response.inj hreply
        exact absurd hlt (Int.not_lt.mpr hstatus)
      · rw [if_neg hstatus]
        rcases body with (reason | reason) | value
        · exact iff_of_true (answered_sync _) nofun
        · refine iff_of_false (not_answered_error nofun) fun h => h ?_
          exact ⟨status, text, reason, rfl, Int.not_le.mp hstatus⟩
        · cases value with
          | object members => exact iff_of_true (answered_ok members) nofun
          | _ => exact iff_of_true (answered_sync _) nofun

/-! ### Receipts and health -/

theorem answered_mapError_iff {x : Except AnswerFault α} :
    Answered (x.mapError AnswerFault.failure) ↔
      ∀ fault, x = .error (.count fault) → fault.isBadValue = true := by
  rcases x with (error | _ | _ | _ | fault) | a
  case error.count =>
    show Answered (.error (if fault.isBadValue then _ else _)) ↔ _
    by_cases hbad : fault.isBadValue = true
    · rw [if_pos hbad]
      exact iff_of_true (answered_sync _) (by simp [hbad])
    · rw [if_neg hbad]
      exact iff_of_false (not_answered_error nofun) (by simpa using hbad)
  case ok => exact iff_of_true (answered_ok a) nofun
  all_goals exact iff_of_true (answered_sync _) nofun

/-- Values of another sort than counts have are the only ones that are not refused as bad values. -/
theorem isBadValue_of_count?_iff {value : Json} :
    (∀ fault, count? value = .error fault → fault.isBadValue = true) ↔ HasCountSort value := by
  cases value with
  | null => exact iff_of_true nofun trivial
  | bool b => exact iff_of_true nofun trivial
  | array items => exact iff_of_false (fun h => nomatch h .array rfl) id
  | object members => exact iff_of_false (fun h => nomatch h .object rfl) id
  | string s =>
      apply iff_of_true _ trivial
      intro fault h
      rw [count?] at h
      cases hread : Text.readInteger s with
      | error e =>
          rw [hread] at h
          obtain rfl := Except.error.inj h
          rfl
      | ok n =>
          rw [hread] at h
          cases h
  | number x =>
      match x with
      | .int n => exact iff_of_true nofun trivial
      | .real .negativeZero => exact iff_of_true nofun trivial
      | .real (.finite q) => exact iff_of_true nofun trivial
      | .real (.infinite negative) => exact iff_of_false (fun h => nomatch h _ rfl) id
      | .real .nan =>
          apply iff_of_true _ trivial
          intro fault h
          obtain rfl := Except.error.inj h
          rfl

/-- The members of an object accept a batch and list the created elements with their ids. -/
def IsReceipt (members : List (String × Json)) : Prop :=
  (member "success" members).isTruthy = true ∧ ∃ ids, idsOf (member "elements" members) = .ok ids

/-- The members of an object tell a status. -/
def IsHealth (members : List (String × Json)) : Prop :=
  ∃ status, Json.get? "status" members = some status

theorem idsOf_ne_count (value : Json) (fault : CountFault) :
    idsOf value ≠ .error (.count fault) := by
  unfold idsOf
  split
  · split <;> nofun
  all_goals nofun

theorem Receipt.ofMembers_eq_count_iff {fault : CountFault} :
    Receipt.ofMembers members = .error (.count fault) ↔
      IsReceipt members ∧ count? (member "count" members) = .error fault := by
  unfold Receipt.ofMembers IsReceipt
  cases (member "success" members).isTruthy with
  | false => exact iff_of_false nofun (by simp)
  | true =>
      cases hids : idsOf (member "elements" members) with
      | error e =>
          refine iff_of_false (fun h => ?_) (by simp)
          obtain rfl := Except.error.inj h
          exact idsOf_ne_count _ fault hids
      | ok ids =>
          cases count? (member "count" members) with
          | ok n => exact iff_of_false nofun (by simp)
          | error e =>
              show Except.error (AnswerFault.count e) = _ ↔ _
              simp

theorem Health.ofMembers_eq_count_iff {fault : CountFault} :
    Health.ofMembers members = .error (.count fault) ↔
      IsHealth members ∧ count? (member "elements_count" members) = .error fault := by
  unfold Health.ofMembers IsHealth
  cases Json.get? "status" members with
  | none => exact iff_of_false nofun (by simp)
  | some status =>
      cases count? (member "elements_count" members) with
      | ok n => exact iff_of_false nofun nofun
      | error e =>
          show Except.error (AnswerFault.count e) = _ ↔ _
          simp

end

/-! ### Requests -/

/-- A reply is no refusal and its body is an object. -/
def Reply.Holds (reply : Reply) (members : List (String × Json)) : Prop :=
  ∃ status text, reply = .response status text (.ok (.object members)) ∧ status < 400

/-- The object in a reply is an answer whose count, under a key, is of another sort. -/
def Reply.Miscounts (isAnswer : List (String × Json) → Prop) (key : String) (reply : Reply) :
    Prop :=
  ∃ members, reply.Holds members ∧ isAnswer members ∧ ¬ HasCountSort (member key members)

/-- A reply ends a request with an error that is none of the server. -/
def Reply.Derails (isAnswer : List (String × Json) → Prop) (key : String) (reply : Reply) : Prop :=
  reply.IsTooDeep ∨ reply.Miscounts isAnswer key

namespace Access

variable {a : Access} {address : String} {elements : List Element} {records : List Json}

theorem answerTo_eq_ok_iff {r : Request} {members : List (String × Json)} :
    a.answerTo r = .ok members ↔ (a.peer r).Holds members := by
  unfold answerTo membersOf Reply.Holds
  cases a.peer r with
  | unreachable reason => simp
  | response status text body =>
      by_cases hstatus : 400 ≤ status
      · simp [hstatus, Int.not_lt.mpr hstatus]
      · rcases body with (_ | _) | _ | _ | _ | _ | _ | members' <;>
          simp [hstatus, Int.not_le.mp hstatus]

theorem not_miscounts_iff {isAnswer : List (String × Json) → Prop} {key : String} {r : Request} :
    ¬ (a.peer r).Miscounts isAnswer key ↔
      ∀ members, a.answerTo r = .ok members → isAnswer members →
        HasCountSort (member key members) := by
  simp only [answerTo_eq_ok_iff]
  constructor
  · intro h members hm hanswer
    by_contra hsort
    exact h ⟨members, hm, hanswer, hsort⟩
  · rintro h ⟨members, hm, hanswer, hsort⟩
    exact hsort (h members hm hanswer)

/-- Reading an answer from a reply is answered unless the reply derails it, if the reader stumbles
over the count of an answer only. -/
theorem answered_read_iff {α : Type} {read : List (String × Json) → Except AnswerFault α}
    {isAnswer : List (String × Json) → Prop} {key : String} {r : Request}
    (hread : ∀ {members fault}, read members = .error (.count fault) ↔
      isAnswer members ∧ count? (member key members) = .error fault) :
    Answered (a.answerTo r >>= fun members => (read members).mapError AnswerFault.failure) ↔
      ¬ (a.peer r).Derails isAnswer key := by
  rw [answered_bind_iff, Reply.Derails, not_or, answered_answerTo_iff, not_miscounts_iff]
  refine and_congr_right fun _ => ?_
  simp only [answered_mapError_iff, hread, ← isBadValue_of_count?_iff, and_imp]
  exact ⟨fun h members hm hi fault => h members hm fault hi,
    fun h members hm fault hi => h members hm hi fault⟩

theorem answered_checkHealth_iff (h : a.address = .ok address) :
    Answered a.checkHealth.outcome.1 ↔
      ¬ (a.peer (a.healthRequest address)).Derails IsHealth "elements_count" := by
  rw [outcome_checkHealth h]
  exact answered_read_iff Health.ofMembers_eq_count_iff

theorem answered_publish_iff (hne : elements ≠ []) (h : a.address = .ok address) :
    Answered (a.publish elements).outcome.1 ↔
      ∃ records, elements.mapM Element.record = .ok records ∧
        (∀ record ∈ records, record.prints = true) ∧
        ¬ (a.peer (a.batchRequest address records)).Derails IsReceipt "count" := by
  cases hrecords : elements.mapM Element.record with
  | error e =>
      rw [outcome_publish_of_record_error hne hrecords]
      exact iff_of_false (not_answered_error nofun) nofun
  | ok records =>
      simp only [Except.ok.injEq, exists_eq_left']
      by_cases hprints : ∀ record ∈ records, record.prints = true
      case neg =>
        rw [outcome_publish_of_not_prints hne h hrecords hprints]
        exact iff_of_false (not_answered_error nofun) fun h => hprints h.1
      rw [outcome_publish hne h hrecords hprints, and_iff_right hprints]
      exact answered_read_iff Receipt.ofMembers_eq_count_iff

/-- **A request to an accepted address ends well or with an error of the server, unless the reply
derails it.**  Elements without records, and records that cannot be printed, are not sent. -/
theorem answered_iff_not_derails (hne : elements ≠ []) (h : a.address = .ok address) :
    (Answered (a.publish elements).outcome.1 ↔
      ∃ records, elements.mapM Element.record = .ok records ∧
        (∀ record ∈ records, record.prints = true) ∧
        ¬ (a.peer (a.batchRequest address records)).Derails IsReceipt "count") ∧
    (Answered a.checkHealth.outcome.1 ↔
      ¬ (a.peer (a.healthRequest address)).Derails IsHealth "elements_count") :=
  ⟨answered_publish_iff hne h, answered_checkHealth_iff h⟩

/-- A way to a server that answers everything with 200 and one object, both of whose counts are
given. -/
def counting (count : Json) : Access :=
  ⟨none, none, .standard, fun _ => .response 200 "" (.ok (.object
    [("success", .bool true), ("elements", .array []), ("count", count),
     ("status", .string "healthy"), ("elements_count", count)]))⟩

/-- A shape to submit. -/
def sample : Element := .shape ⟨"A", .rectangle, 0, 0, 120, 60, "A", .standard, 0, 1⟩

theorem address_counting (count : Json) : (counting count).address = .ok standardAddress := by
  have h : resolve none none = .ok standardAddress := by decide +kernel
  unfold address
  rw [show (counting count).given = none from rfl, show (counting count).env = none from rfl, h]
  rfl

theorem prints_sample :
    [sample].mapM Element.record = .ok [ShapeElement.record ⟨"A", .rectangle, 0, 0, 120, 60, "A",
      .standard, 0, 1⟩] ∧
    ∀ record ∈ [ShapeElement.record ⟨"A", .rectangle, 0, 0, 120, 60, "A", .standard, 0, 1⟩],
      record.prints = true := by
  refine ⟨rfl, ?_⟩
  rw [List.forall_mem_singleton]
  decide +kernel

/-- Counts that are no numbers. -/
theorem answered_iff_not_derails_nan : [sample] ≠ [] ∧
    (counting (.number (.real .nan))).address = .ok standardAddress ∧
    Answered ((counting (.number (.real .nan))).publish [sample]).outcome.1 ∧
    Answered (counting (.number (.real .nan))).checkHealth.outcome.1 := by
  have hreply : ∀ {isAnswer : List (String × Json) → Prop} {key : String} {r : Request},
      key ∈ ["count", "elements_count"] →
      ¬ ((counting (.number (.real .nan))).peer r).Derails isAnswer key := by
    rintro _ key _ hkey (⟨_, _, _, hreply, -⟩ | ⟨_, ⟨_, _, hreply, -⟩, -, hsort⟩)
    · cases (Reply.response.inj hreply).2.2
    · obtain ⟨-, -, hbody⟩ := Reply.response.inj hreply
      obtain rfl := Json.object.inj (Except.ok.inj hbody)
      simp only [List.mem_cons, List.not_mem_nil, or_false] at hkey
      rcases hkey with rfl | rfl <;> exact hsort trivial
  have hne : [sample] ≠ [] := List.cons_ne_nil _ _
  have haddress := address_counting (.number (.real .nan))
  obtain ⟨hpublish, hhealth⟩ := answered_iff_not_derails hne haddress
  obtain ⟨hrecords, hprints⟩ := prints_sample
  exact ⟨hne, haddress, hpublish.mpr ⟨_, hrecords, hprints, hreply (by simp)⟩,
    hhealth.mpr (hreply (by simp))⟩

/-- A list in place of a count ends either request with an error that is none of the server. -/
theorem not_answered_counting : [sample] ≠ [] ∧
    (counting (.array [])).address = .ok standardAddress ∧
    ((counting (.array [])).publish [sample]).outcome.1 = .error (.count .array) ∧
    ¬ Answered ((counting (.array [])).publish [sample]).outcome.1 ∧
    (counting (.array [])).checkHealth.outcome.1 = .error (.count .array) ∧
    ¬ Answered (counting (.array [])).checkHealth.outcome.1 := by
  have haddress := address_counting (.array [])
  have hne : [sample] ≠ [] := List.cons_ne_nil _ _
  have hpublish : ((counting (.array [])).publish [sample]).outcome.1 = .error (.count .array) := by
    rw [outcome_publish hne haddress prints_sample.1 prints_sample.2]
    rfl
  have hhealth : (counting (.array [])).checkHealth.outcome.1 = .error (.count .array) := by
    rw [outcome_checkHealth haddress]
    rfl
  refine ⟨hne, haddress, hpublish, ?_, hhealth, ?_⟩
  · rw [hpublish]
    exact not_answered_error nofun
  · rw [hhealth]
    exact not_answered_error nofun

end Access

end Flowchart.Server
