/-
Messages that go out to a chat channel.

A `Notice` is a message as a desk composes it: its key is still a list of parts.
`Notice.outbound` is the message as it is delivered, with the digest of the key.
A delivery may be repeated, and a receiver drops what has a key it knows.

A notice about an event of a run is keyed by its purpose, the event and the
place it goes to.  A reply is keyed by the message it answers and by whatever
else tells it from other replies to the same message.
-/
import JobGate.Message.Inbound
import JobGate.Message.Key
import JobGate.Run.Record

namespace JobGate

/-- A message ready to be delivered. -/
structure Outbound where
  body : String
  correlationId : String
  idempotencyKey : String
  channel : String
  conversation : String
deriving DecidableEq, Repr

/-- What a message refers to. -/
inductive Correlation
  /-- A run or a message, by its identifier. -/
  | to (id : String)
  /-- Nothing but itself. -/
  | itself
deriving DecidableEq, Repr

/-- A message as it is composed. -/
structure Notice where
  body : String
  correlation : Correlation
  key : Key
  channel : String
  conversation : String
deriving DecidableEq, Repr

namespace Notice

/-- The longest body that is sent whole, in characters. -/
def longestBody : Nat := 4000

/-- How much of a longer body is kept. -/
def keptBody : Nat := 3900

/-- What follows the part of a body that is kept. -/
def cutMark : String := "\n\n[Response truncated...]"

def cut (body : String) : String :=
  let chars := body.toList
  if chars.length ≤ longestBody then body
  else String.ofList (chars.take keptBody ++ cutMark.toList)

def outbound (n : Notice) : Outbound :=
  let key := n.key.digest
  { body := n.body
    correlationId :=
      match n.correlation with
      | .to id => id
      | .itself => key
    idempotencyKey := key
    channel := n.channel
    conversation := n.conversation }

/-- A notice about an event of a run, sent to some conversation. -/
def ofEventIn (run : Run) (event : Event) (purpose channel conversation body : String) :
    Notice where
  body := cut body
  correlation := .to run.id.text
  key := ⟨[purpose, run.id.text, toString event.seq, channel, conversation]⟩
  channel := channel
  conversation := conversation

/-- A notice about an event of a run, sent to the run's own conversation. -/
def ofEvent (run : Run) (event : Event) (purpose body : String) : Notice :=
  ofEventIn run event purpose run.channel run.conversation body

/-- A reply to a message.  `scope` holds what else identifies the reply, such as
the state of the run it reports. -/
def reply (m : Inbound) (purpose : String) (scope : List String) (body : String) : Notice where
  body := cut body
  correlation :=
    match m.providerId with
    | some id => .to id
    | none => .itself
  key := ⟨[purpose, m.channel, m.conversation, m.sender, m.source] ++ scope⟩
  channel := m.channel
  conversation := m.conversation

end Notice

/-- Where messages are delivered.  Some of the next deliveries may fail, and
what fails is lost. -/
structure Outbox where
  delivered : List Outbound := []
  failing : Nat := 0
deriving DecidableEq, Repr

namespace Outbox

def deliver (o : Outbox) (m : Outbound) : Outbox :=
  if o.failing = 0 then { o with delivered := o.delivered ++ [m] }
  else { o with failing := o.failing - 1 }

/-- Delivers messages in order.  A failure does not keep the later ones back. -/
def deliverAll (o : Outbox) (notices : List Notice) : Outbox :=
  notices.foldl (fun o n => o.deliver n.outbound) o

def take (o : Outbox) : List Outbound × Outbox := (o.delivered, { o with delivered := [] })

end Outbox
end JobGate
