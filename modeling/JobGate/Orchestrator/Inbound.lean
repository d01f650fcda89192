/-
What a message does to the runs.

A message has a run created, decides on one, or asks for its state.  Whatever it
does is answered by exactly one notice, or by none when a decision names a run
that is not known.  A message without a provider's identifier is given a receipt
number, so that sending it twice gets two replies.
-/
import JobGate.Orchestrator.Creation
import JobGate.Time.Rfc3339

namespace JobGate

/-- A message on its way through the orchestrator, with its receipt number. -/
structure Received where
  message : Inbound
  receipt : Nat
deriving DecidableEq

namespace Received

/-- What the receipt adds to the key of a reply. -/
def receiptScope (r : Received) : List String :=
  match r.message.providerId with
  | some _ => []
  | none => ["receipt-" ++ toString r.receipt]

def reply (r : Received) (purpose body : String) : Notice :=
  Notice.reply r.message purpose r.receiptScope body

/-- A reply that tells the state of a run.  Its key holds the last event and the
status too. -/
def replyAbout (r : Received) (record : RunRecord) (purpose body : String) : Notice :=
  Notice.reply r.message purpose
    ([toString record.lastSeq, record.status.name] ++ r.receiptScope) body

def guidance (r : Received) : Notice :=
  r.reply "guidance"
    ("Commands: `run <job>`, `yes <run>` / `approve <run>`, `no <run>` / `deny <run>`, " ++
      "`status <run>`.")

/-- The reply to a question about a run that is not known. -/
def notFound (r : Received) (run : String) : Notice :=
  r.reply "not_found" ("Run " ++ run ++ " was not found.")

end Received

namespace Orchestrator

def describe (record : RunRecord) : String :=
  let run := record.run
  let head := "Run " ++ run.id.text ++ " (`" ++ run.jobKey ++ "`): " ++ run.status.name ++
    "\nRequested by " ++ run.requestedBy ++ " at " ++ Rfc3339.withOffset run.createdAt
  match record.events.getLast? with
  | some last =>
    head ++ "\nLast event: " ++ last.kind.name ++ " by " ++ last.actor ++ " at " ++
      Rfc3339.withOffset last.time
  | none => head

def answerStatus (o : Orchestrator) (r : Received) (run : String) (outcome : InboundOutcome) :
    Except OrchestratorError InboundOutcome :=
  match o.store.find? run with
  | none =>
    .ok { outcome with notices := [r.notFound run], condition := some (.notFound run) }
  | some record =>
    match record.verify with
    | .error fault => .error (.corrupt record.run.id.text fault)
    | .ok () => .ok { outcome with notices := [r.replyAbout record "status" (describe record)] }

/-- A decision on a run that no longer waits for one. -/
def refuseLate (r : Received) (record : RunRecord) (run : String) (outcome : InboundOutcome) :
    InboundOutcome :=
  { outcome with
    notices := [r.replyAbout record "invalid_transition"
      ("Run " ++ run ++ " is " ++ record.status.name ++ "; it is no longer awaiting approval.")]
    condition := some (.invalidTransition run record.status) }

def refuseSender (r : Received) (record : RunRecord) (run : String) (outcome : InboundOutcome) :
    InboundOutcome :=
  { outcome with
    notices := [r.replyAbout record "unauthorized"
      ("You are not allowed to approve or deny run " ++ run ++ ".")]
    condition := some (.unauthorized run r.message.sender) }

def deny (m : Inbound) (clock : Readings) (record : RunRecord) (run : String)
    (outcome : InboundOutcome) : Except OrchestratorError InboundOutcome × RunRecord :=
  match appendChecked record .denied m.sender (Payload.ofTexts [("decidedBy", m.sender)])
      (clock 0) with
  | .error e => (.error e, record)
  | .ok (event, record) =>
    let body :=
      "Run " ++ run ++ " (`" ++ record.run.jobKey ++ "`) was denied by " ++ m.sender ++ "."
    (.ok { outcome with
        notices := [Notice.ofEventIn record.run event "denied" m.channel m.conversation body] },
      record)

def approve (m : Inbound) (clock : Readings) (record : RunRecord) (run : String)
    (outcome : InboundOutcome) : Except OrchestratorError InboundOutcome × RunRecord :=
  match appendChecked record .approved m.sender (Payload.ofTexts [("decidedBy", m.sender)])
      (clock 0) with
  | .error e => (.error e, record)
  | .ok (_, record) =>
    let jobKey := record.run.jobKey
    match appendChecked record .dispatched actor (Payload.ofTexts [("jobKey", jobKey)])
        (clock 1) with
    | .error e => (.error e, record)
    | .ok (event, record) =>
      let body := "Run " ++ run ++ " (`" ++ jobKey ++ "`) approved by " ++ m.sender ++
        "; dispatching."
      (.ok { outcome with
          notices := [Notice.ofEventIn record.run event "approved" m.channel m.conversation body]
          dispatch := some ⟨record.run.id, jobKey⟩
          dispatched := true },
        record)

/-- Decides on a run, when it is known, waits for a decision, and the sender may
decide on it. -/
def decide (o : Orchestrator) (clock : Readings) (r : Received) (run : String) (approves : Bool)
    (outcome : InboundOutcome) : Except OrchestratorError InboundOutcome × Orchestrator :=
  match o.store.find? run with
  | none => (.ok { outcome with condition := some (.notFound run) }, o)
  | some record =>
    if record.status ≠ .awaitingApproval then (.ok (refuseLate r record run outcome), o)
    else if !o.policy record.run r.message.sender then
      (.ok (refuseSender r record run outcome), o)
    else
      let (result, record) :=
        if approves then approve r.message clock record run outcome
        else deny r.message clock record run outcome
      (result, o.put record)

def request (o : Orchestrator) (clock : Readings) (draws : Draws) (m : Inbound) (jobKey : String)
    (outcome : InboundOutcome) : Except OrchestratorError InboundOutcome × Orchestrator × Draws :=
  match Creation.complete (RunRequest.ofMessage m jobKey) clock o.store draws with
  | (.error e, store, draws) => (.error e, { o with store }, draws)
  | (.ok (id, notice), store, draws) =>
    (.ok { outcome with run := some id.text, notices := [notice] }, { o with store }, draws)

/-- Takes a message with the intent that was read from it.  Every message taken
uses up a receipt number. -/
def handle (o : Orchestrator) (clock : Readings) (draws : Draws) (m : Inbound) (i : Intent) :
    Except OrchestratorError InboundOutcome × Orchestrator × Draws :=
  let o := { o with receipts := o.receipts + 1 }
  let r : Received := ⟨m, o.receipts⟩
  let outcome := InboundOutcome.ofIntent i
  let guided := (Except.ok { outcome with notices := [r.guidance] }, o, draws)
  match i.kind, i.jobKey, i.run with
  | .runJob, some jobKey, _ => o.request clock draws m jobKey outcome
  | .approveRun, _, some run =>
    let (result, o) := o.decide clock r run true outcome
    (result, o, draws)
  | .denyRun, _, some run =>
    let (result, o) := o.decide clock r run false outcome
    (result, o, draws)
  | .status, _, some run => (o.answerStatus r run outcome, o, draws)
  | .runJob, none, _ => guided
  | .approveRun, _, none => guided
  | .denyRun, _, none => guided
  | .status, _, none => guided
  | .unknown, _, _ => guided

end Orchestrator
end JobGate
