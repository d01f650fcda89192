/-
Calls of a queue, one after the other.

A `QueueCall` is an operation with the clock that it reads.  The history of a queue lists
the calls with their answers, and that is all that those who use a queue ever see of it.
Both kinds of queue can be given the same calls.
-/
import JobGate.Queue.Basic
import Mathlib.Data.List.Induction

namespace JobGate

inductive QueueOp
  /-- One attempt to add an entry; the flag tells whether the stop was asked for. -/
  | offer (d : Dispatch) (stopped : Bool)
  | claim (worker : String)
  | complete (id : Int) (success : Bool) (error : Option String)
  | release (id : Int) (error : Option String)
  | renew (id : Int) (worker : String)
  | reclaim (timeout : Nat)
  | depth
deriving DecidableEq

/-- The entry whose claim an operation ends or renews. -/
def QueueOp.settles? : QueueOp → Option Int
  | complete id _ _ | release id _ | renew id _ => some id
  | offer _ _ | claim _ | reclaim _ | depth => none

structure QueueCall where
  clock : Clock
  op : QueueOp
deriving DecidableEq

inductive QueueAnswer
  | offered (result : Except QueueError Offer)
  | claimed (result : Except QueueError (Option QueuedDispatch))
  /-- What the calls that end or renew a claim are answered. -/
  | settled (result : Except QueueError Unit)
  | reclaimed (result : Except QueueError Nat)
  | counted (result : Except QueueError Depth)
deriving DecidableEq

structure QueueEvent extends QueueCall where
  answer : QueueAnswer
deriving DecidableEq

namespace ExecutionQueue

variable {Q : Type} [ExecutionQueue Q]

def perform (q : Q) (c : QueueCall) : QueueAnswer × Q :=
  match c.op with
  | .offer d stopped => (offer q c.clock d stopped).map .offered id
  | .claim worker => (claim q c.clock worker).map .claimed id
  | .complete entry success error => (complete q c.clock entry success error).map .settled id
  | .release entry error => (release q c.clock entry error).map .settled id
  | .renew entry worker => (renew q c.clock entry worker).map .settled id
  | .reclaim timeout => (reclaim q c.clock timeout).map .reclaimed id
  | .depth => (depth q).map .counted id

def after (q : Q) (calls : List QueueCall) : Q := calls.foldl (fun q c => (perform q c).2) q

def history : Q → List QueueCall → List QueueEvent
  | _, [] => []
  | q, c :: rest => ⟨c, (perform q c).1⟩ :: history (perform q c).2 rest

def answers (q : Q) (calls : List QueueCall) : List QueueAnswer :=
  (history q calls).map (·.answer)

theorem after_cons (q : Q) (c : QueueCall) (rest : List QueueCall) :
    after q (c :: rest) = after (perform q c).2 rest := rfl

theorem answers_cons (q : Q) (c : QueueCall) (rest : List QueueCall) :
    answers q (c :: rest) = (perform q c).1 :: answers (perform q c).2 rest := rfl

theorem after_concat (q : Q) (calls : List QueueCall) (c : QueueCall) :
    after q (calls ++ [c]) = (perform (after q calls) c).2 := List.foldl_append ..

theorem history_append (q : Q) (calls calls' : List QueueCall) :
    history q (calls ++ calls') = history q calls ++ history (after q calls) calls' := by
  induction calls generalizing q with
  | nil => rfl
  | cons c rest ih => exact congrArg (_ :: ·) (ih (perform q c).2)

theorem history_concat (q : Q) (calls : List QueueCall) (c : QueueCall) :
    history q (calls ++ [c]) = history q calls ++ [⟨c, (perform (after q calls) c).1⟩] :=
  history_append q calls [c]

theorem calls_history (q : Q) (calls : List QueueCall) :
    (history q calls).map (·.toQueueCall) = calls := by
  induction calls generalizing q with
  | nil => rfl
  | cons c rest ih => exact congrArg (c :: ·) (ih (perform q c).2)

/-- Every place in a history is that of a call that found the queue as the calls before
it had left it. -/
theorem of_history_eq {q : Q} {calls : List QueueCall} {before after' : List QueueEvent}
    {e : QueueEvent} (h : history q calls = before ++ e :: after') :
    ∃ first rest, calls = first ++ e.toQueueCall :: rest ∧ history q first = before ∧
      e.answer = (perform (after q first) e.toQueueCall).1 := by
  induction calls generalizing q before with
  | nil => cases before <;> cases h
  | cons c rest ih =>
    cases before with
    | nil =>
      obtain ⟨rfl, -⟩ := List.cons.inj h
      exact ⟨[], rest, rfl, rfl, rfl⟩
    | cons x before =>
      obtain ⟨rfl, hrest⟩ := List.cons.inj h
      obtain ⟨first, rest', rfl, rfl, hanswer⟩ := ih hrest
      exact ⟨c :: first, rest', rfl, rfl, hanswer⟩

end ExecutionQueue
end JobGate
