/-
A queue that is kept in memory.

Entries are kept by ascending identifier, and the identifiers of those that wait
for a worker are also kept in a list of their own, from which the next one is
taken.  The age of a claim is measured on the clock that only moves forward.
-/
import JobGate.Queue.Basic

namespace JobGate

/-- Who has claimed an entry, and the elapsed time of the last renewal. -/
structure Claim where
  worker : String
  since : Nat
deriving DecidableEq, Repr

/-- An entry that is not finished. -/
structure MemoryEntry where
  dispatch : QueuedDispatch
  claim : Option Claim := none
  lastError : Option String := none
deriving DecidableEq

/-- The queue.  An entry is kept under its own identifier, so there is no key beside
it.  Identifiers are not bounded, where 64 bits would end with `2 ^ 63 - 1`. -/
structure MemoryQueue where
  capacity : Nat
  nextId : Int
  entries : List MemoryEntry
  pending : List Int
deriving DecidableEq

namespace MemoryQueue

/-- An empty queue.  It has room for at least one entry. -/
def new (capacity : Nat) : MemoryQueue := ⟨max capacity 1, 1, [], []⟩

def entry? (q : MemoryQueue) (id : Int) : Option MemoryEntry :=
  q.entries.find? (·.dispatch.id = id)

/-- Puts an identifier into a list in ascending order that does not hold it. -/
def insertId (id : Int) : List Int → List Int
  | [] => [id]
  | x :: rest => if id < x then id :: x :: rest else x :: insertId id rest

def update (q : MemoryQueue) (id : Int) (f : MemoryEntry → MemoryEntry) : MemoryQueue :=
  { q with entries := q.entries.map fun e => if e.dispatch.id = id then f e else e }

/-- The highest number of attempts that is counted, `2 ^ 32 - 1`. -/
def maxAttempts : Nat := 4294967295

/-- An entry that waits again. -/
def MemoryEntry.freed (error : Option String) (e : MemoryEntry) : MemoryEntry :=
  { dispatch := { e.dispatch with attempts := min (e.dispatch.attempts + 1) maxAttempts }
    claim := none
    lastError := error }

/-- Ends the claim of an entry, when it is claimed. -/
def free? (q : MemoryQueue) (id : Int) (error : Option String) : Option MemoryQueue :=
  match (q.entry? id).bind (·.claim) with
  | none => none
  | some _ =>
    let q := q.update id (MemoryEntry.freed error)
    some { q with pending := insertId id q.pending }

/-- Adds an entry behind the others while there is room. -/
def offer (q : MemoryQueue) (d : Dispatch) (stopped : Bool) : Offer × MemoryQueue :=
  if stopped then (.canceled, q)
  else if q.entries.length < q.capacity then
    (.entry q.nextId,
      { q with
        nextId := q.nextId + 1
        entries := q.entries ++ [{ dispatch := ⟨q.nextId, d.run, d.jobKey, 0⟩ }]
        pending := insertId q.nextId q.pending })
  else (.full, q)

/-- Claims the entry that waits and has the lowest identifier. -/
def claim (q : MemoryQueue) (clock : Clock) (worker : String) :
    Except QueueError (Option QueuedDispatch) × MemoryQueue :=
  match q.pending with
  | [] => (.ok none, q)
  | id :: rest =>
    let q := { q with pending := rest }
    match q.entry? id with
    | none => (.error (.corrupt id "pending id has no entry"), q)
    | some e =>
      (.ok (some e.dispatch), q.update id fun e => { e with claim := some ⟨worker, clock.elapsed⟩ })

def isClaimed (q : MemoryQueue) (id : Int) : Bool := ((q.entry? id).bind (·.claim)).isSome

def complete (q : MemoryQueue) (id : Int) : Except QueueError Unit × MemoryQueue :=
  if q.isClaimed id then
    (.ok (), { q with entries := q.entries.filter (·.dispatch.id ≠ id) })
  else (.error (.notClaimed id), q)

/-- Ends the claim of an entry and lets it wait again. -/
def release (q : MemoryQueue) (id : Int) (error : Option String) :
    Except QueueError Unit × MemoryQueue :=
  match q.free? id error with
  | some q => (.ok (), q)
  | none => (.error (.notClaimed id), q)

def renew (q : MemoryQueue) (clock : Clock) (id : Int) (worker : String) :
    Except QueueError Unit × MemoryQueue :=
  match (q.entry? id).bind (·.claim) with
  | some c =>
    if c.worker = worker then
      (.ok (), q.update id fun e => { e with claim := some ⟨worker, clock.elapsed⟩ })
    else (.error (.notClaimed id), q)
  | none => (.error (.notClaimed id), q)

/-- Whether a claim has been left alone for at least some time. -/
def isStale (clock : Clock) (timeout : Nat) (e : MemoryEntry) : Bool :=
  match e.claim with
  | some c => timeout ≤ clock.elapsed - c.since
  | none => false

/-- The identifiers of the entries whose claims are stale. -/
def staleIds (q : MemoryQueue) (clock : Clock) (timeout : Nat) : List Int :=
  (q.entries.filter (isStale clock timeout)).map (·.dispatch.id)

/-- Ends the claims of the entries with some identifiers and counts them. -/
def freeAll (q : MemoryQueue) : List Int → Nat × MemoryQueue
  | [] => (0, q)
  | id :: rest =>
    match q.free? id (some reclaimMessage) with
    | some q =>
      let (n, q) := q.freeAll rest
      (n + 1, q)
    | none => q.freeAll rest

def reclaim (q : MemoryQueue) (clock : Clock) (timeout : Nat) : Nat × MemoryQueue :=
  q.freeAll (q.staleIds clock timeout)

def depth (q : MemoryQueue) : Depth := ⟨q.pending.length, q.entries.length - q.pending.length⟩

/-- The last error of an entry that is not finished. -/
def lastError (q : MemoryQueue) (id : Int) : Option String := (q.entry? id).bind (·.lastError)

instance : ExecutionQueue MemoryQueue where
  offer q _ d stopped :=
    let (answer, q) := q.offer d stopped
    (.ok answer, q)
  claim := claim
  complete q _ id _ _ := q.complete id
  release q _ id error := q.release id error
  renew := renew
  reclaim q clock timeout :=
    let (n, q) := q.reclaim clock timeout
    (.ok n, q)
  depth q := (.ok q.depth, q)

end MemoryQueue
end JobGate
