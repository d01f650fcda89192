/-
The records as JSON.

Each record has an encoder and a reader.  Field names are in camel case, the kind
of an event or intent is called `type`, and an instant is a text.  What may be
absent is written `null`, except the two arguments of an intent, which are left
out.
-/
import JobGate.Intent
import JobGate.Message.Outbound
import JobGate.Queue.Basic
import JobGate.Time.Rfc3339
import JobGate.Wire.Reading
import JobGate.Worker.Health

namespace JobGate
namespace Wire

/-- The highest value of an unsigned number of 64 bits, `2 ^ 64 - 1`. -/
def maxUnsigned : Nat := 18446744073709551615

/-- The highest number of attempts that can be told, `2 ^ 32 - 1`. -/
def maxAttempts : Nat := 4294967295

def signed : Reader Int := integer (-9223372036854775808) 9223372036854775807

def ofInstant (t : Instant) : Json := .str (Rfc3339.zulu t)

def instant : Reader Instant
  | .str s =>
    match Rfc3339.parse? s with
    | some t => .ok t
    | none => .error .shape
  | _ => .error .shape

def status : Reader Status := word (Status.all.map Status.name) Status.ofName?

def eventKind : Reader EventKind := word (EventKind.all.map EventKind.name) EventKind.ofName?

def intentKind : Reader IntentKind :=
  word (IntentKind.all.map IntentKind.name) IntentKind.ofName?

def workerState : Reader WorkerState :=
  word (WorkerState.all.map WorkerState.name) WorkerState.ofName?

end Wire

/-! ## Intents -/

namespace Intent

def toJson (i : Intent) : Json :=
  .obj ([("type", .str i.kind.name), ("rawText", .str i.rawText)] ++
    Json.member? "jobKey" .str i.jobKey ++ Json.member? "runId" .str i.run)

def slots : List Wire.Slot :=
  [Wire.slot "type" Wire.intentKind, Wire.slot "rawText" Wire.text,
    Wire.slot "jobKey" (Wire.nullable Wire.text) .allowed,
    Wire.slot "runId" (Wire.nullable Wire.text) .allowed]

def ofJson (j : Json) : Except Wire.Fault Intent := do
  let f ← Wire.fields slots j
  return {
    kind := ← f.get "type" Wire.intentKind
    rawText := ← f.get "rawText" Wire.text
    jobKey := ← f.getD "jobKey" (Wire.nullable Wire.text) none
    run := ← f.getD "runId" (Wire.nullable Wire.text) none }

end Intent

/-! ## Messages -/

namespace Inbound

def toJson (m : Inbound) : Json :=
  .obj [("channel", .str m.channel), ("from", .str m.sender),
    ("conversation", .str m.conversation), ("body", .str m.body),
    ("providerMessageId", Json.nullable .str m.providerId)]

def slots : List Wire.Slot :=
  [Wire.slot "channel" Wire.text .allowed, Wire.slot "from" Wire.text,
    Wire.slot "conversation" Wire.text, Wire.slot "body" Wire.text,
    Wire.slot "providerMessageId" (Wire.nullable Wire.text) .allowed]

def ofFields (f : Wire.Fields) : Except Wire.Fault Inbound := do
  return {
    channel := ← f.getD "channel" Wire.text defaultChannel
    sender := ← f.get "from" Wire.text
    conversation := ← f.get "conversation" Wire.text
    body := ← f.get "body" Wire.text
    providerId := ← f.getD "providerMessageId" (Wire.nullable Wire.text) none }

def ofJson (j : Json) : Except Wire.Fault Inbound := (Wire.fields slots j).bind ofFields

def ofText (s : String) : Except Wire.Fault Inbound :=
  (Wire.fieldsOfText slots (Json.readObject s)).bind ofFields

end Inbound

namespace Outbound

def toJson (m : Outbound) : Json :=
  .obj [("body", .str m.body), ("correlationId", .str m.correlationId),
    ("idempotencyKey", .str m.idempotencyKey), ("channelId", .str m.channel),
    ("conversation", .str m.conversation)]

def slots : List Wire.Slot :=
  [Wire.slot "body" Wire.text, Wire.slot "correlationId" Wire.text,
    Wire.slot "idempotencyKey" Wire.text, Wire.slot "channelId" Wire.text,
    Wire.slot "conversation" Wire.text]

def ofFields (f : Wire.Fields) : Except Wire.Fault Outbound := do
  return {
    body := ← f.get "body" Wire.text
    correlationId := ← f.get "correlationId" Wire.text
    idempotencyKey := ← f.get "idempotencyKey" Wire.text
    channel := ← f.get "channelId" Wire.text
    conversation := ← f.get "conversation" Wire.text }

def ofJson (j : Json) : Except Wire.Fault Outbound := (Wire.fields slots j).bind ofFields

def ofText (s : String) : Except Wire.Fault Outbound :=
  (Wire.fieldsOfText slots (Json.readObject s)).bind ofFields

def line (m : Outbound) : String := (Json.compact m.toJson).push '\n'

def lines (ms : List Outbound) : String := "".intercalate (ms.map line)

end Outbound

/-! ## Runs and events -/

namespace Run

def toJson (r : Run) : Json :=
  .obj [("runId", .str r.id.text), ("jobKey", .str r.jobKey), ("status", .str r.status.name),
    ("createdAt", Wire.ofInstant r.createdAt), ("requestedBy", .str r.requestedBy),
    ("channelId", .str r.channel), ("conversationId", .str r.conversation)]

def slots : List Wire.Slot :=
  [Wire.slot "runId" Wire.runId, Wire.slot "jobKey" Wire.text, Wire.slot "status" Wire.status,
    Wire.slot "createdAt" Wire.instant, Wire.slot "requestedBy" Wire.text,
    Wire.slot "channelId" Wire.text, Wire.slot "conversationId" Wire.text]

def ofJson (j : Json) : Except Wire.Fault Run := do
  let f ← Wire.fields slots j
  return {
    id := ← f.get "runId" Wire.runId
    jobKey := ← f.get "jobKey" Wire.text
    status := ← f.get "status" Wire.status
    createdAt := ← f.get "createdAt" Wire.instant
    requestedBy := ← f.get "requestedBy" Wire.text
    channel := ← f.get "channelId" Wire.text
    conversation := ← f.get "conversationId" Wire.text }

end Run

namespace Event

def toJson (e : Event) : Json :=
  .obj [("runId", .str e.run.text), ("seq", .nat e.seq), ("type", .str e.kind.name),
    ("at", Wire.ofInstant e.time), ("actor", .str e.actor), ("payload", .obj e.payload)]

def slots : List Wire.Slot :=
  [Wire.slot "runId" Wire.runId, Wire.slot "seq" (Wire.natural Wire.maxUnsigned),
    Wire.slot "type" Wire.eventKind, Wire.slot "at" Wire.instant, Wire.slot "actor" Wire.text,
    Wire.slot "payload" Wire.members .allowed]

def ofJson (j : Json) : Except Wire.Fault Event := do
  let f ← Wire.fields slots j
  return {
    run := ← f.get "runId" Wire.runId
    seq := ← f.get "seq" (Wire.natural Wire.maxUnsigned)
    kind := ← f.get "type" Wire.eventKind
    time := ← f.get "at" Wire.instant
    actor := ← f.get "actor" Wire.text
    payload := ← f.getD "payload" Wire.members [] }

end Event

/-! ## Dispatches -/

namespace Dispatch

def toJson (d : Dispatch) : Json := .obj [("runId", .str d.run.text), ("jobKey", .str d.jobKey)]

def slots : List Wire.Slot := [Wire.slot "runId" Wire.runId, Wire.slot "jobKey" Wire.text]

def ofJson (j : Json) : Except Wire.Fault Dispatch := do
  let f ← Wire.fields slots j
  return { run := ← f.get "runId" Wire.runId, jobKey := ← f.get "jobKey" Wire.text }

end Dispatch

namespace QueuedDispatch

def toJson (d : QueuedDispatch) : Json :=
  .obj [("queueId", .int d.id), ("runId", .str d.run.text), ("jobKey", .str d.jobKey),
    ("attempts", .nat d.attempts)]

def slots : List Wire.Slot :=
  [Wire.slot "queueId" Wire.signed, Wire.slot "runId" Wire.runId, Wire.slot "jobKey" Wire.text,
    Wire.slot "attempts" (Wire.natural Wire.maxAttempts)]

def ofJson (j : Json) : Except Wire.Fault QueuedDispatch := do
  let f ← Wire.fields slots j
  return {
    id := ← f.get "queueId" Wire.signed
    run := ← f.get "runId" Wire.runId
    jobKey := ← f.get "jobKey" Wire.text
    attempts := ← f.get "attempts" (Wire.natural Wire.maxAttempts) }

end QueuedDispatch

/-! ## Health -/

namespace WorkerHealth

def toJson (h : WorkerHealth) : Json :=
  .obj [("state", .str h.state.name), ("lastError", Json.nullable .str h.lastError),
    ("lastErrorAt", Json.nullable .int h.lastErrorAt), ("errorCount", .nat h.errorCount),
    ("startedAt", Json.nullable .int h.startedAt), ("stoppedAt", Json.nullable .int h.stoppedAt)]

def slots : List Wire.Slot :=
  [Wire.slot "state" Wire.workerState,
    Wire.slot "lastError" (Wire.nullable Wire.text) .unlessArray,
    Wire.slot "lastErrorAt" (Wire.nullable Wire.signed) .unlessArray,
    Wire.slot "errorCount" (Wire.natural Wire.maxUnsigned),
    Wire.slot "startedAt" (Wire.nullable Wire.signed) .unlessArray,
    Wire.slot "stoppedAt" (Wire.nullable Wire.signed) .unlessArray]

def ofJson (j : Json) : Except Wire.Fault WorkerHealth := do
  let f ← Wire.fields slots j
  return {
    state := ← f.get "state" Wire.workerState
    lastError := ← f.getD "lastError" (Wire.nullable Wire.text) none
    lastErrorAt := ← f.getD "lastErrorAt" (Wire.nullable Wire.signed) none
    errorCount := ← f.get "errorCount" (Wire.natural Wire.maxUnsigned)
    startedAt := ← f.getD "startedAt" (Wire.nullable Wire.signed) none
    stoppedAt := ← f.getD "stoppedAt" (Wire.nullable Wire.signed) none }

end WorkerHealth
end JobGate
