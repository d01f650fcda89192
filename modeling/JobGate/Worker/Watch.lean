/-
A worker on watch: it looks for work again and again until it is asked to stop.

What it finds and when it is asked to stop is up to its surroundings, which are
a parameter.  What it does itself is kept in order, so that a watch tells what
the worker has done since it came on watch.  A step is one look with what
follows from it.
-/
import JobGate.Worker.Polling

namespace JobGate

/-- What a worker finds when it looks for work: an entry that it has dealt with,
nothing, or an error. -/
abbrev Finding := Except WorkerError (Option Processed)

instance Finding.decEq : DecidableEq Finding
  | .ok a, .ok b => decidable_of_iff (a = b) ⟨congrArg _, Except.ok.inj⟩
  | .error e, .error e' => decidable_of_iff (e = e') ⟨congrArg _, Except.error.inj⟩
  | .ok _, .error _ => isFalse nofun
  | .error _, .ok _ => isFalse nofun

/-- What surrounds a worker. -/
structure Surroundings (S : Type) where
  /-- The wall clock in milliseconds. -/
  time : S → Int
  /-- Whether the worker is asked to stop. -/
  stopped : S → Bool
  look : S → Finding × S
  /-- Sleeps, and tells whether the whole time passed with no request to stop. -/
  sleep : Nat → S → Bool × S

/-- What a worker on watch does. -/
inductive Act
  | looked (finding : Finding)
  | slept (length : Nat)
  | reported (event : WorkerEvent)
deriving DecidableEq

def Act.event? : Act → Option WorkerEvent
  | reported event => some event
  | looked _ | slept _ => none

/-- The report of what went wrong, if anything did. -/
def Polling.Turn.report? (t : Polling.Turn) (worker : String) (time : Int) : Option WorkerEvent :=
  t.error.map (WorkerEvent.error worker time)

structure Watch (S : Type) where
  place : S
  /-- How long the worker sleeps the next time that it finds nothing. -/
  wait : Nat
  acts : List Act
  ended : Bool := false

namespace Watch

variable {S : Type} (p : Polling) (around : Surroundings S) (worker : String)

def start (place : S) : Watch S where
  place := place
  wait := p.shortest
  acts := [.reported (.started worker (around.time place))]

def finish (w : Watch S) : Watch S :=
  { w with
    acts := w.acts ++ [.reported (.stopped worker (around.time w.place))]
    ended := true }

/-- Looks for work once more, unless the worker is asked to stop. -/
def step (w : Watch S) : Watch S :=
  if w.ended then w
  else if around.stopped w.place then w.finish around worker
  else
    let (finding, place) := around.look w.place
    let turn := p.turn w.wait finding
    let report := turn.report? worker (around.time place)
    let acts := w.acts ++ .looked finding :: report.toList.map .reported
    match turn.wait with
    | none => { w with place, acts, wait := turn.next }
    | some length =>
      let (through, place) := around.sleep length place
      let w := { w with place, acts := acts ++ [.slept length], wait := turn.next }
      if through then w else w.finish around worker

def run (w : Watch S) : Nat → Watch S
  | 0 => w
  | n + 1 => (w.run n).step p around worker

end Watch
end JobGate
