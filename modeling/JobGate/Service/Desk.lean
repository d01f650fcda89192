/-
A desk at work: messages that come in line by line, and workers who execute.

What happens at a desk is a list of lines that come in and of steps that workers
take, in any order.  A message that finds the queue full keeps the lines behind it
waiting, and the workers go on until there is room.  Whether a line is taken or
rejected is told by its outcome.
-/
import JobGate.Service.Console
import JobGate.Service.Intake
import JobGate.Worker.Task

namespace JobGate

/-- What workers need besides the site: a clock, and somebody who executes. -/
structure Conditions where
  clock : Clock
  execute : Dispatch → Report

/-- A desk: the shared parts, the random source, and what the workers have in
hand. -/
structure Desk (Q : Type) where
  site : Site Q
  draws : Draws
  tasks : List (String × Task) := []

/-- What became of a line. -/
inductive LineOutcome
  | blank
  | unreadable (fault : Wire.Fault)
  | refused (error : IntakeError)
  | taken (outcome : InboundOutcome)
  /-- There is no room in the queue, and nobody makes any. -/
  | stuck

namespace LineOutcome

def received : LineOutcome → Bool
  | blank => false
  | _ => true

def rejected : LineOutcome → Bool
  | unreadable _ => true
  | refused _ => true
  | _ => false

end LineOutcome

/-- What happens at a desk. -/
inductive Happening
  | line (text : String)
  /-- A worker takes a step. -/
  | work (worker : String)
deriving DecidableEq, Repr

namespace Desk

variable {Q : Type} [ExecutionQueue Q]

/-- Puts a task into the hands of a worker, or takes it away when it is done. -/
def hand (d : Desk Q) (worker : String) (t : Task) : Desk Q :=
  let others := d.tasks.filter fun p => p.1 ≠ worker
  { d with tasks := if t.result?.isSome then others else (worker, t) :: others }

/-- A step of a worker, who claims an entry or goes on with the one in hand.
Nobody is asked to stop. -/
def work (c : Conditions) (worker : String) (d : Desk Q) : Desk Q :=
  match d.tasks.lookup worker with
  | none =>
    match Task.claim d.site c.clock worker with
    | (.ok (some t), site) => { d with site }.hand worker t
    | (_, site) => { d with site }
  | some (.executing entry claimLost) =>
    d.hand worker
      (.reported (c.execute entry.dispatch) false (.executing entry claimLost))
  | some t =>
    let (t, site) := t.step c.clock worker d.site
    { d with site }.hand worker t

/-- The number of steps that a worker needs for an entry: to claim it, to report
that the run begins, to execute it, to report how it ended, and to complete it. -/
def stepsPerEntry : Nat := 5

/-- The number of steps that a worker needs for everything in the queue. -/
def stepsLeft (d : Desk Q) : Nat :=
  match ExecutionQueue.depth d.site.queue with
  | (.ok depth, _) => stepsPerEntry * (depth.live + 1)
  | (.error _, _) => 0

/-- Goes on with a message, letting a worker take steps, so many at most, while
there is no room for it. -/
def settle (c : Conditions) (worker : Option String) : Nat → Intake → Desk Q → Intake × Desk Q
  | steps, i, d =>
    match i.settle c.clock false d.site with
    | (.enqueuing outcome dispatch, site) =>
      match steps, worker with
      | n + 1, some w => settle c worker n (.enqueuing outcome dispatch) ({ d with site }.work c w)
      | _, _ => (.enqueuing outcome dispatch, { d with site })
    | (i, site) => (i, { d with site })

def receive (c : Conditions) (worker : Option String) (m : Inbound) (d : Desk Q) :
    LineOutcome × Desk Q :=
  let (i, site, draws) := Intake.take d.site c.clock.still d.draws m
  match settle c worker d.stepsLeft i { d with site, draws } with
  | (.done (.ok outcome), d) => (.taken outcome, d)
  | (.done (.error e), d) => (.refused e, d)
  | (_, d) => (.stuck, d)

def readLine (c : Conditions) (worker : Option String) (text : String) (d : Desk Q) :
    LineOutcome × Desk Q :=
  match Console.read? text with
  | none => (.blank, d)
  | some (.error fault) => (.unreadable fault, d)
  | some (.ok m) => d.receive c worker m

/-- What happens at a desk, one after the other, with the outcomes of the lines.
`worker` goes on with the work while a message waits for room. -/
def run (c : Conditions) (worker : Option String) :
    List Happening → Desk Q → List LineOutcome × Desk Q
  | [], d => ([], d)
  | .work w :: rest, d => run c worker rest (d.work c w)
  | .line text :: rest, d =>
    let (outcome, d) := d.readLine c worker text
    let (outcomes, d) := run c worker rest d
    (outcome :: outcomes, d)

/-- Lets a worker take steps, so many at most, until there is nothing in the queue.
A queue that cannot be counted is not waited for. -/
def drain (c : Conditions) (worker : Option String) : Nat → Desk Q → Desk Q
  | 0, d => d
  | n + 1, d =>
    match ExecutionQueue.depth d.site.queue, worker with
    | (.ok depth, queue), some w =>
      let d := { d with site := { d.site with queue } }
      if depth.live = 0 then d else drain c worker n (d.work c w)
    | _, _ => d

def finish (c : Conditions) (worker : Option String) (d : Desk Q) : Desk Q :=
  d.drain c worker d.stepsLeft

end Desk
end JobGate
