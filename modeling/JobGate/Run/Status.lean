/-
The life of a run.

A run passes through statuses, and the events of its log move it from one to the
next.  `apply` is the only definition of which event is legal where; replaying a
log is repeated application of it.
-/

namespace JobGate

inductive Status
  | created
  | awaitingApproval
  | approved
  | dispatching
  | running
  | succeeded
  | failed
  | denied
  | canceled
  | timedOut
deriving DecidableEq, Repr

/-- What can happen to a run. -/
inductive EventKind
  | created
  | approvalRequested
  | approved
  | denied
  | dispatched
  | started
  | succeeded
  | failed
  | timedOut
  | canceled
deriving DecidableEq, Repr

namespace EventKind

def name : EventKind → String
  | created => "Created"
  | approvalRequested => "ApprovalRequested"
  | approved => "Approved"
  | denied => "Denied"
  | dispatched => "Dispatched"
  | started => "Started"
  | succeeded => "Succeeded"
  | failed => "Failed"
  | timedOut => "TimedOut"
  | canceled => "Canceled"

/-- Every kind of event, in the order in which they are listed to a reader. -/
def all : List EventKind :=
  [created, approvalRequested, approved, denied, dispatched, started, succeeded, failed,
    timedOut, canceled]

def ofName? (s : String) : Option EventKind := all.find? (·.name = s)

end EventKind

namespace Status

def name : Status → String
  | created => "Created"
  | awaitingApproval => "AwaitingApproval"
  | approved => "Approved"
  | dispatching => "Dispatching"
  | running => "Running"
  | succeeded => "Succeeded"
  | failed => "Failed"
  | denied => "Denied"
  | canceled => "Canceled"
  | timedOut => "TimedOut"

/-- Every status, in the order in which they are listed to a reader. -/
def all : List Status :=
  [created, awaitingApproval, approved, dispatching, running, succeeded, failed, denied,
    canceled, timedOut]

def ofName? (s : String) : Option Status := all.find? (·.name = s)

def isTerminal : Status → Bool
  | succeeded | failed | denied | canceled | timedOut => true
  | created | awaitingApproval | approved | dispatching | running => false

/-- The status behind an event, and `none` where the event is not legal.  A run
that is over takes no event; any other can time out or be canceled. -/
def apply (s : Status) (e : EventKind) : Option Status :=
  if s.isTerminal then none
  else
    match s, e with
    | created, .approvalRequested => some awaitingApproval
    | awaitingApproval, .approved => some approved
    | awaitingApproval, .denied => some denied
    | approved, .dispatched => some dispatching
    | dispatching, .started => some running
    | running, .succeeded => some succeeded
    | running, .failed => some failed
    | _, .timedOut => some timedOut
    | _, .canceled => some canceled
    | _, _ => none

end Status
end JobGate
