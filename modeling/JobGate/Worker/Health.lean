/-
The health of workers, as far as they report it.

Workers report when they start, stop, or meet an error.  An error does not stop
a worker, so it only shows in the state of a worker that is not running.
-/

namespace JobGate

/-- What a worker reports, with the time in milliseconds. -/
inductive WorkerEvent
  | started (worker : String) (time : Int)
  | error (worker : String) (time : Int) (message : String)
  | stopped (worker : String) (time : Int)
deriving DecidableEq, Repr

def WorkerEvent.worker : WorkerEvent → String
  | started worker _ => worker
  | error worker _ _ => worker
  | stopped worker _ => worker

/-- The state of a worker. -/
inductive WorkerState
  | stopped
  | running
  | error
deriving DecidableEq, Repr

namespace WorkerState

def name : WorkerState → String
  | stopped => "stopped"
  | running => "running"
  | error => "error"

/-- Every state, in the order in which they are listed to a reader. -/
def all : List WorkerState := [stopped, running, error]

def ofName? (s : String) : Option WorkerState := all.find? (·.name = s)

end WorkerState

/-- What is known about a worker.  Times are in milliseconds.  The number of errors is
not bounded, where a counter of 64 bits would end with `2 ^ 64 - 1`. -/
structure WorkerHealth where
  state : WorkerState := .stopped
  lastError : Option String := none
  lastErrorAt : Option Int := none
  errorCount : Nat := 0
  startedAt : Option Int := none
  stoppedAt : Option Int := none
deriving DecidableEq, Repr

def WorkerHealth.after (h : WorkerHealth) : WorkerEvent → WorkerHealth
  | .started _ time => { h with state := .running, startedAt := some time, stoppedAt := none }
  | .error _ time message =>
    { h with
      state := if h.state = .stopped then .error else h.state
      lastError := some message
      lastErrorAt := some time
      errorCount := h.errorCount + 1 }
  | .stopped _ time => { h with state := .stopped, stoppedAt := some time }

/-- The health of every worker that is known, in the order in which they became
known. -/
structure Registry where
  workers : List (String × WorkerHealth) := []
deriving DecidableEq, Repr

namespace Registry

def get? (r : Registry) (worker : String) : Option WorkerHealth := r.workers.lookup worker

/-- Replaces the health of a worker, or adds it behind the others. -/
def update (worker : String) (f : WorkerHealth → WorkerHealth) :
    List (String × WorkerHealth) → List (String × WorkerHealth)
  | [] => [(worker, f {})]
  | (w, h) :: rest => if w = worker then (w, f h) :: rest else (w, h) :: update worker f rest

def register (r : Registry) (worker : String) : Registry := ⟨update worker id r.workers⟩

def apply (r : Registry) (e : WorkerEvent) : Registry :=
  ⟨update e.worker (·.after e) r.workers⟩

def applyAll (r : Registry) (events : List WorkerEvent) : Registry := events.foldl apply r

def running (r : Registry) : Nat := r.workers.countP (·.2.state = .running)

end Registry
end JobGate
