/-
The answers of an orchestrator as JSON.

They are only written.  A condition says by its `kind` what it is, and is left
out when there is none; so is the dispatch of an outcome.
-/
import JobGate.Orchestrator.Basic
import JobGate.Wire.Records

namespace JobGate

def Wire.ofNotices (notices : List Notice) : Json :=
  .arr (notices.map fun n => n.outbound.toJson)

def InboundCondition.toJson : InboundCondition → Json
  | notFound run => .obj [("kind", .str "notFound"), ("runId", .str run)]
  | invalidTransition run status =>
    .obj [("kind", .str "invalidTransition"), ("runId", .str run), ("status", .str status.name)]
  | unauthorized run sender =>
    .obj [("kind", .str "unauthorized"), ("runId", .str run), ("sender", .str sender)]

def InboundOutcome.toJson (o : InboundOutcome) : Json :=
  .obj ([("intentType", .str o.intent.name), ("jobKey", Json.nullable .str o.jobKey),
    ("runId", Json.nullable .str o.run), ("dispatchedExecution", .bool o.dispatched),
    ("outbound", Wire.ofNotices o.notices)] ++
    Json.member? "dispatch" Dispatch.toJson o.dispatch ++
    Json.member? "condition" InboundCondition.toJson o.condition)

def ExecutionCondition.name : ExecutionCondition → String
  | notFound => "notFound"
  | duplicate => "duplicate"
  | invalidTransition => "invalidTransition"

def ExecutionCondition.toJson (c : ExecutionCondition) : Json := .obj [("kind", .str c.name)]

def ExecutionOutcome.toJson (o : ExecutionOutcome) : Json :=
  .obj ([("runId", .str o.run), ("status", Json.nullable (fun s => .str s.name) o.status),
    ("applied", .bool o.applied), ("outbound", Wire.ofNotices o.notices)] ++
    Json.member? "condition" ExecutionCondition.toJson o.condition)

/-- A run and its log as a value.  Here the requester's address is called by a
longer name. -/
def Timeline.toJson (t : Timeline) : Json :=
  .obj [("run", .obj [("runId", .str t.run.id.text), ("jobKey", .str t.run.jobKey),
      ("status", .str t.run.status.name), ("createdAt", Wire.ofInstant t.run.createdAt),
      ("requestedByAddress", .str t.run.requestedBy), ("channelId", .str t.run.channel),
      ("conversationId", .str t.run.conversation)]),
    ("events", .arr (t.events.map Event.toJson))]

end JobGate
