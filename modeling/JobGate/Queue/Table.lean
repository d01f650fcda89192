/-
A queue that is kept as a table of rows.

A row stays in the table when its entry is finished, so the table is also the
history of the queue.  Rows are numbered from one and no number is used twice.
The age of a claim is measured on the wall clock in whole milliseconds.  Rows may
be put into the table from outside, so a row can hold anything; one that cannot be
read is marked as failed when its turn comes.
-/
import JobGate.Queue.Basic

namespace JobGate

/-- What a row says about its entry. -/
inductive RowStatus
  | pending
  | claimed
  | succeeded
  | failed
  /-- A word that no queue writes. -/
  | other (word : String)
deriving DecidableEq, Repr

namespace RowStatus

def word : RowStatus → String
  | pending => "pending"
  | claimed => "claimed"
  | succeeded => "succeeded"
  | failed => "failed"
  | other word => word

def ofWord (s : String) : RowStatus :=
  if s = "pending" then pending
  else if s = "claimed" then claimed
  else if s = "succeeded" then succeeded
  else if s = "failed" then failed
  else other s

end RowStatus

/-- A row.  The time of a claim is in milliseconds. -/
structure Row where
  id : Int
  run : String
  jobKey : String
  status : RowStatus
  attempts : Int := 0
  claimedBy : Option String := none
  claimedAt : Option Int := none
  lastError : Option String := none
deriving DecidableEq, Repr

/-- A table of rows, by ascending number. -/
structure TableQueue where
  capacity : Nat
  rows : List Row
  nextId : Int
  /-- Whether the table is gone, so that no statement can be carried out. -/
  missing : Bool
deriving DecidableEq, Repr

namespace TableQueue

/-- An empty table.  The queue has room for at least one entry. -/
def new (capacity : Nat) : TableQueue := ⟨max capacity 1, [], 1, false⟩

/-- The answer of a statement on a table that is gone. -/
def onTable {α : Type} (q : TableQueue) (f : TableQueue → Except QueueError α × TableQueue) :
    Except QueueError α × TableQueue :=
  if q.missing then (.error .statement, q) else f q

def count (q : TableQueue) (s : RowStatus) : Nat := q.rows.countP (·.status = s)

/-- Changes the rows that satisfy a condition and counts them. -/
def updateWhere (q : TableQueue) (condition : Row → Bool) (f : Row → Row) : Nat × TableQueue :=
  (q.rows.countP condition,
    { q with rows := q.rows.map fun r => if condition r then f r else r })

def insert (q : TableQueue) (row : Int → Row) : Int × TableQueue :=
  (q.nextId, { q with rows := q.rows ++ [row q.nextId], nextId := q.nextId + 1 })

def add (q : TableQueue) (d : Dispatch) : Offer × TableQueue :=
  if q.capacity ≤ q.count .pending + q.count .claimed then (.full, q)
  else
    let (id, q) := q.insert fun id =>
      { id, run := d.run.text, jobKey := d.jobKey, status := .pending }
    (.entry id, q)

/-- Attempts to add an entry.  The table is not looked at once the stop was asked
for. -/
def offer (q : TableQueue) (d : Dispatch) (stopped : Bool) :
    Except QueueError Offer × TableQueue :=
  if stopped then (.ok .canceled, q)
  else
    q.onTable fun q =>
      let (answer, q) := q.add d
      (.ok answer, q)

/-- The number of attempts in a row, where it is one of 32 bits. -/
def attempts? (r : Row) : Option Nat :=
  if 0 ≤ r.attempts ∧ r.attempts < 4294967296 then some r.attempts.toNat else none

/-- A row that will never be claimed. -/
def unreadable (reason : String) (r : Row) : Row :=
  { r with status := .failed, lastError := some reason }

/-- Claims the row that waits and has the lowest number. -/
def claim (q : TableQueue) (clock : Clock) (worker : String) :
    Except QueueError (Option QueuedDispatch) × TableQueue :=
  match q.rows.find? (·.status = .pending) with
  | none => (.ok none, q)
  | some row =>
    match attempts? row with
    | none => (.error .statement, q)
    | some attempts =>
      match RunId.parse row.run with
      | .error fault =>
        let reason := fault.message RunId.kind
        (.error (.corrupt row.id reason), (q.updateWhere (·.id = row.id) (unreadable reason)).2)
      | .ok run =>
        (.ok (some ⟨row.id, run, row.jobKey, attempts⟩),
          (q.updateWhere (fun r => r.id = row.id && r.status = .pending) fun r =>
            { r with
              status := .claimed
              claimedBy := some worker
              claimedAt := some clock.millis }).2)

/-- The answer of a statement that ought to have changed a row. -/
def changed (id : Int) (r : Nat × TableQueue) : Except QueueError Unit × TableQueue :=
  if r.1 = 0 then (.error (.notClaimed id), r.2) else (.ok (), r.2)

def complete (q : TableQueue) (id : Int) (success : Bool) (error : Option String) :
    Except QueueError Unit × TableQueue :=
  changed id <| q.updateWhere (fun r => r.id = id && r.status = .claimed) fun r =>
    { r with status := if success then .succeeded else .failed, lastError := error }

/-- A row that waits again. -/
def freed (error : Option String) (r : Row) : Row :=
  { r with
    status := .pending
    attempts := r.attempts + 1
    claimedBy := none
    claimedAt := none
    lastError := error }

/-- Ends the claim of a row and lets it wait again. -/
def release (q : TableQueue) (id : Int) (error : Option String) :
    Except QueueError Unit × TableQueue :=
  changed id <| q.updateWhere (fun r => r.id = id && r.status = .claimed) (freed error)

def renew (q : TableQueue) (clock : Clock) (id : Int) (worker : String) :
    Except QueueError Unit × TableQueue :=
  changed id <| q.updateWhere
    (fun r => r.id = id && r.status = .claimed && r.claimedBy = some worker)
    fun r => { r with claimedAt := some clock.millis }

/-- The highest number of milliseconds that a table can hold, `2 ^ 63 - 1`. -/
def maxMillis : Int := 9223372036854775807

/-- The time before which a claim is stale.  It stops at the lowest number that
a table can hold. -/
def cutoff (clock : Clock) (timeout : Nat) : Int :=
  max (clock.millis - min (Duration.toMillis timeout : Int) maxMillis) (-maxMillis - 1)

/-- Whether a claim has been left alone since some time. -/
def isStale (cutoff : Int) (r : Row) : Bool :=
  r.status = .claimed && r.claimedAt.any (· ≤ cutoff)

def reclaim (q : TableQueue) (clock : Clock) (timeout : Nat) : Nat × TableQueue :=
  q.updateWhere (isStale (cutoff clock timeout)) (freed (some reclaimMessage))

/-- Counts the rows of entries that are not finished. -/
def depth (q : TableQueue) : Depth := ⟨q.count .pending, q.count .claimed⟩

def entryStatus (q : TableQueue) (id : Int) : Option (RowStatus × Option String) :=
  (q.rows.find? (·.id = id)).map fun r => (r.status, r.lastError)

/-- The table after it has vanished. -/
def drop (q : TableQueue) : TableQueue := { q with rows := [], nextId := 1, missing := true }

/-- The table opened again.  One that has vanished is made anew. -/
def reopen (q : TableQueue) : TableQueue := { q with missing := false }

instance : ExecutionQueue TableQueue where
  offer q _ d stopped := q.offer d stopped
  claim q clock worker := q.onTable (·.claim clock worker)
  complete q _ id success error := q.onTable (·.complete id success error)
  release q _ id error := q.onTable (·.release id error)
  renew q clock id worker := q.onTable (·.renew clock id worker)
  reclaim q clock timeout :=
    q.onTable fun q =>
      let (n, q) := q.reclaim clock timeout
      (.ok n, q)
  depth q := q.onTable fun q => (.ok q.depth, q)

end TableQueue
end JobGate
