/-
The queue of a desk: one of the two backends, which may be broken on purpose.

`Backend` is either queue behind one interface.  `Faulty` is a queue in front of
which some of the next calls fail without reaching it.
-/
import JobGate.Queue.Memory
import JobGate.Queue.Table

namespace JobGate

/-- A queue of either kind. -/
inductive Backend
  | memory (q : MemoryQueue)
  | table (q : TableQueue)
deriving DecidableEq

namespace Backend

def wrap {α Q : Type} (f : Q → Backend) (r : α × Q) : α × Backend := (r.1, f r.2)

instance : ExecutionQueue Backend where
  offer q clock d stopped :=
    match q with
    | memory q => wrap memory (ExecutionQueue.offer q clock d stopped)
    | table q => wrap table (ExecutionQueue.offer q clock d stopped)
  claim q clock worker :=
    match q with
    | memory q => wrap memory (ExecutionQueue.claim q clock worker)
    | table q => wrap table (ExecutionQueue.claim q clock worker)
  complete q clock id success error :=
    match q with
    | memory q => wrap memory (ExecutionQueue.complete q clock id success error)
    | table q => wrap table (ExecutionQueue.complete q clock id success error)
  release q clock id error :=
    match q with
    | memory q => wrap memory (ExecutionQueue.release q clock id error)
    | table q => wrap table (ExecutionQueue.release q clock id error)
  renew q clock id worker :=
    match q with
    | memory q => wrap memory (ExecutionQueue.renew q clock id worker)
    | table q => wrap table (ExecutionQueue.renew q clock id worker)
  reclaim q clock timeout :=
    match q with
    | memory q => wrap memory (ExecutionQueue.reclaim q clock timeout)
    | table q => wrap table (ExecutionQueue.reclaim q clock timeout)
  depth q :=
    match q with
    | memory q => wrap memory (ExecutionQueue.depth q)
    | table q => wrap table (ExecutionQueue.depth q)

end Backend

/-- How many of the next calls of each kind fail. -/
structure Outage where
  offer : Nat := 0
  claim : Nat := 0
  complete : Nat := 0
  release : Nat := 0
  renew : Nat := 0
  reclaim : Nat := 0
  depth : Nat := 0
deriving DecidableEq, Repr

/-- A queue behind an outage. -/
structure Faulty (Q : Type) where
  queue : Q
  outage : Outage := {}
deriving DecidableEq

namespace Faulty

/-- A call of a kind of which `left` calls fail. -/
def call {α Q : Type} (q : Faulty Q) (left : Nat) (fewer : Outage)
    (f : Q → Except QueueError α × Q) : Except QueueError α × Faulty Q :=
  if left = 0 then
    let (result, queue) := f q.queue
    (result, { q with queue })
  else (.error .poisoned, { q with outage := fewer })

instance {Q : Type} [ExecutionQueue Q] : ExecutionQueue (Faulty Q) where
  offer q clock d stopped :=
    q.call q.outage.offer { q.outage with offer := q.outage.offer - 1 }
      (ExecutionQueue.offer · clock d stopped)
  claim q clock worker :=
    q.call q.outage.claim { q.outage with claim := q.outage.claim - 1 }
      (ExecutionQueue.claim · clock worker)
  complete q clock id success error :=
    q.call q.outage.complete { q.outage with complete := q.outage.complete - 1 }
      (ExecutionQueue.complete · clock id success error)
  release q clock id error :=
    q.call q.outage.release { q.outage with release := q.outage.release - 1 }
      (ExecutionQueue.release · clock id error)
  renew q clock id worker :=
    q.call q.outage.renew { q.outage with renew := q.outage.renew - 1 }
      (ExecutionQueue.renew · clock id worker)
  reclaim q clock timeout :=
    q.call q.outage.reclaim { q.outage with reclaim := q.outage.reclaim - 1 }
      (ExecutionQueue.reclaim · clock timeout)
  depth q :=
    q.call q.outage.depth { q.outage with depth := q.outage.depth - 1 }
      (ExecutionQueue.depth ·)

end Faulty
end JobGate
