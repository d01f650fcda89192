/-
What a queue of approved runs holds and answers.

`ExecutionQueue` is the interface of every queue.  An operation is a function
from the queue and the clock to an answer and the queue behind it, and a queue
may change even where the answer is an error.  An entry waits until a worker
claims it; the claim ends when the worker completes or releases the entry, or
when it has not been renewed for so long that somebody takes it back.
-/
import JobGate.Run.Identifier
import JobGate.Time.Instant

namespace JobGate

/-- An approved run that is to be executed. -/
structure Dispatch where
  run : RunId
  jobKey : String
deriving DecidableEq

/-- A dispatch with its place in a queue.  `attempts` counts how often a claim of
it has ended without completing it. -/
structure QueuedDispatch where
  id : Int
  run : RunId
  jobKey : String
  attempts : Nat
deriving DecidableEq

/-- The dispatch without its place. -/
def QueuedDispatch.dispatch (q : QueuedDispatch) : Dispatch := ⟨q.run, q.jobKey⟩

/-- The number of entries that wait and of those that are claimed. -/
structure Depth where
  pending : Nat
  claimed : Nat
deriving DecidableEq, Repr

/-- The number of all entries that are not finished. -/
def Depth.live (d : Depth) : Nat := d.pending + d.claimed

/-- Why a queue could not answer. -/
inductive QueueError
  /-- The entry is not claimed, or not by the worker that asks. -/
  | notClaimed (id : Int)
  /-- The entry cannot be handed out. -/
  | corrupt (id : Int) (reason : String)
  /-- The queue was left in the middle of a change. -/
  | poisoned
  | misconfigured (backend reason : String)
  /-- The storage refused a statement. -/
  | statement
  /-- The storage could not be opened. -/
  | unopened (path : String)
  /-- The place for the storage could not be made. -/
  | noParent (path : String)
deriving DecidableEq, Repr

def QueueError.message : QueueError → String
  | .notClaimed id => "queue entry " ++ toString id ++ " is not currently claimed"
  | .corrupt id reason => "queue entry " ++ toString id ++ " is corrupt: " ++ reason
  | .poisoned => "queue state lock poisoned"
  | .misconfigured backend reason =>
    "queue backend `" ++ backend ++ "` is misconfigured: " ++ reason
  | .statement => "sqlite statement failed"
  | .unopened path => "sqlite open failed at " ++ path
  | .noParent path => "failed to create queue database parent " ++ path

/-- Whether the error only tells that a claim is over. -/
def QueueError.isNotClaimed : QueueError → Bool
  | .notClaimed _ => true
  | _ => false

/-- The last error of an entry whose claim was taken back. -/
def reclaimMessage : String := "claim lock expired"

/-- How an attempt to add an entry ended. -/
inductive Offer
  | entry (id : Int)
  /-- The stop was asked for before there was room. -/
  | canceled
  /-- There is no room yet. -/
  | full
deriving DecidableEq, Repr

/-- What every queue can do. -/
class ExecutionQueue (Q : Type) where
  /-- Attempts to add an entry; the flag tells whether the stop was asked for.
  Whoever adds an entry attempts it until the answer is not `full`. -/
  offer : Q → Clock → Dispatch → Bool → Except QueueError Offer × Q
  /-- Claims the oldest entry that waits for a worker. -/
  claim : Q → Clock → String → Except QueueError (Option QueuedDispatch) × Q
  /-- Ends a claim and removes the entry. -/
  complete : Q → Clock → Int → Bool → Option String → Except QueueError Unit × Q
  /-- Ends a claim and lets the entry wait again. -/
  release : Q → Clock → Int → Option String → Except QueueError Unit × Q
  /-- Restarts the age of a worker's claim. -/
  renew : Q → Clock → Int → String → Except QueueError Unit × Q
  /-- Takes back the claims of at least some age and counts them. -/
  reclaim : Q → Clock → Nat → Except QueueError Nat × Q
  /-- Counts the entries. -/
  depth : Q → Except QueueError Depth × Q

end JobGate
