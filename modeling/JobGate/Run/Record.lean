/-
Runs, their events, and the record that keeps both together.

The log of events is authoritative.  A record also keeps the status that the log
leads to, and `append` is the only operation that writes either, so the two
agree; `verify` checks it by replaying the log.
-/
import JobGate.Json.Value
import JobGate.Run.Identifier
import JobGate.Run.Status
import JobGate.Time.Instant

namespace JobGate

/-- A run, as far as a reader of its present state is concerned. -/
structure Run where
  id : RunId
  jobKey : String
  status : Status
  createdAt : Instant
  requestedBy : String
  channel : String
  conversation : String
deriving DecidableEq

/-- What else is known about an event: named values, sorted by name. -/
abbrev Payload := List (String × Json)

/-- Something that happened to a run. -/
structure Event where
  run : RunId
  seq : Nat
  kind : EventKind
  time : Instant
  actor : String
  payload : Payload

namespace Payload

def ofTexts (fields : List (String × String)) : Payload :=
  fields.map fun (k, v) => (k, .str v)

end Payload

/-! ## Replay -/

/-- Why a list of events is not the log of a run. -/
inductive ReplayFault
  | noEvents
  | firstNotCreated (kind : EventKind)
  | illegal (seq : Nat) (kind : EventKind) (status : Status)
deriving DecidableEq, Repr

def ReplayFault.message : ReplayFault → String
  | noEvents => "run has no events"
  | firstNotCreated kind => "first event is `" ++ kind.name ++ "`, expected `Created`"
  | illegal seq kind status =>
    "event #" ++ toString seq ++ " `" ++ kind.name ++ "` is not a legal transition from `" ++
      status.name ++ "`"

/-- The status that events lead to from a given one. -/
def replayFrom (status : Status) : List Event → Except ReplayFault Status
  | [] => .ok status
  | e :: rest =>
    match status.apply e.kind with
    | some next => replayFrom next rest
    | none => .error (.illegal e.seq e.kind status)

/-- The status that a log leads to.  A log begins with the creation of its
run. -/
def replay : List Event → Except ReplayFault Status
  | [] => .error .noEvents
  | e :: rest =>
    if e.kind = .created then replayFrom .created rest else .error (.firstNotCreated e.kind)

/-! ## Records -/

/-- A run together with its log. -/
structure RunRecord where
  run : Run
  events : List Event

/-- What a requester decides about a new run. -/
structure NewRun where
  id : RunId
  jobKey : String
  requestedBy : String
  channel : String
  conversation : String
deriving DecidableEq

/-- An event that is not legal in the present status. -/
structure Rejection where
  status : Status
  kind : EventKind
deriving DecidableEq, Repr

/-- Why a record cannot be trusted. -/
inductive RecordFault
  | replay (fault : ReplayFault)
  /-- The status kept beside the log is not the one the log leads to. -/
  | disagrees (kept replayed : Status)
  /-- An event was rejected although its transition had been checked. -/
  | rejected (rejection : Rejection)
deriving DecidableEq, Repr

def RecordFault.message : RecordFault → String
  | replay fault => fault.message
  | disagrees kept replayed =>
    "cached status `" ++ kept.name ++ "` disagrees with replayed `" ++ replayed.name ++ "`"
  | rejected r =>
    "transition `" ++ r.status.name ++ "` + `" ++ r.kind.name ++ "` rejected after validation"

namespace RunRecord

def status (r : RunRecord) : Status := r.run.status

/-- The number of the last event, and zero without one. -/
def lastSeq (r : RunRecord) : Nat :=
  match r.events.getLast? with
  | some e => e.seq
  | none => 0

/-- The record of a new run, whose log holds its creation. -/
def create (new : NewRun) (time : Instant) : RunRecord where
  run :=
    { id := new.id
      jobKey := new.jobKey
      status := .created
      createdAt := time
      requestedBy := new.requestedBy
      channel := new.channel
      conversation := new.conversation }
  events :=
    [{ run := new.id
       seq := 1
       kind := .created
       time := time
       actor := new.requestedBy
       payload := Payload.ofTexts [("jobKey", new.jobKey)] }]

/-- The event that would come next.  Its time is not earlier than that of the
event before it, and its number is one more. -/
def nextEvent (r : RunRecord) (kind : EventKind) (actor : String) (payload : Payload)
    (time : Instant) : Event :=
  match r.events.getLast? with
  | some last => ⟨r.run.id, last.seq + 1, kind, last.time.latest time, actor, payload⟩
  | none => ⟨r.run.id, 1, kind, time, actor, payload⟩

/-- Appends an event and moves the status, when the event is legal. -/
def append (r : RunRecord) (kind : EventKind) (actor : String) (payload : Payload)
    (time : Instant) : Except Rejection (Event × RunRecord) :=
  match r.status.apply kind with
  | none => .error ⟨r.status, kind⟩
  | some next =>
    let event := r.nextEvent kind actor payload time
    .ok (event, { run := { r.run with status := next }, events := r.events ++ [event] })

def verify (r : RunRecord) : Except RecordFault Unit :=
  match replay r.events with
  | .error fault => .error (.replay fault)
  | .ok replayed =>
    if replayed = r.status then .ok () else .error (.disagrees r.status replayed)

end RunRecord
end JobGate
