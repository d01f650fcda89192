/-
New runs.

Creating a run draws identifiers until one is free.  `Creation` says how far this
has come, and each step either looks up one identifier or adds the record, so
several creations may take their steps in any order: a record is only added when
its identifier is still free at that moment.
-/
import JobGate.Orchestrator.Basic

namespace JobGate

/-- What is asked for when a run is created. -/
structure RunRequest where
  jobKey : String
  requestedBy : String
  channel : String
  conversation : String
deriving DecidableEq

namespace RunRequest

def ofMessage (m : Inbound) (jobKey : String) : RunRequest :=
  ⟨jobKey, m.sender, m.channel, m.conversation⟩

def named (q : RunRequest) (id : RunId) : NewRun :=
  ⟨id, q.jobKey, q.requestedBy, q.channel, q.conversation⟩

end RunRequest

/-- How far the creation of a run has come. -/
inductive Creation
  /-- Identifiers may be drawn this many more times. -/
  | drawing (left : Nat)
  /-- The identifier was free, and the record is to be added. -/
  | adding (left : Nat) (record : RunRecord) (notice : Notice)
  | done (result : Except OrchestratorError (RunId × Notice))

namespace Creation

/-- How many identifiers are drawn at most. -/
def maxDraws : Nat := 16

def approvalNotice (run : Run) (event : Event) : Notice :=
  let id := run.id.text
  Notice.ofEvent run event "approval"
    ("Run " ++ id ++ " for job `" ++ run.jobKey ++ "` is awaiting approval. Reply `yes " ++ id ++
      "` to approve or `no " ++ id ++ "` to deny.")

/-- The record of a new run that waits for a decision, with its notice.  The
creation and the request for approval have a reading of the clock each. -/
def compose (q : RunRequest) (id : RunId) (created requested : Instant) :
    Except OrchestratorError (RunRecord × Notice) :=
  match Orchestrator.appendChecked (RunRecord.create (q.named id) created) .approvalRequested
      Orchestrator.actor [] requested with
  | .error e => .error e
  | .ok (event, record) => .ok (record, approvalNotice record.run event)

/-- Draws one identifier and looks whether it is free. -/
def look (q : RunRequest) (clock : Readings) (left : Nat) (store : RunStore) (draws : Draws) :
    Creation × Draws :=
  match left with
  | 0 => (.done (.error (.allTaken maxDraws)), draws)
  | left + 1 =>
    match RunId.generate (clock 0).seconds draws with
    | (.error fault, draws) => (.done (.error (.noIdentifier fault)), draws)
    | (.ok id, draws) =>
      if store.contains id.text then (.drawing left, draws)
      else
        match compose q id (clock 0) (clock 1) with
        | .error e => (.done (.error e), draws)
        | .ok (record, notice) => (.adding left record notice, draws)

/-- Adds the record, unless its identifier has been taken since. -/
def add (left : Nat) (record : RunRecord) (notice : Notice) (store : RunStore) :
    Creation × RunStore :=
  match store.insert? record with
  | some store => (.done (.ok (record.run.id, notice)), store)
  | none => (.drawing left, store)

def step (q : RunRequest) (clock : Readings) (c : Creation) (store : RunStore) (draws : Draws) :
    Creation × RunStore × Draws :=
  match c with
  | .drawing left =>
    let (c, draws) := look q clock left store draws
    (c, store, draws)
  | .adding left record notice =>
    let (c, store) := add left record notice store
    (c, store, draws)
  | .done result => (.done result, store, draws)

/-- Takes all steps of a creation, one after the other.  A step that fails to
add a record is followed by one that draws, and at most `maxDraws` are. -/
def run (q : RunRequest) (clock : Readings) : Nat → Creation → RunStore → Draws →
    Except OrchestratorError (RunId × Notice) × RunStore × Draws
  | _, .done result, store, draws => (result, store, draws)
  | 0, _, store, draws => (.error (.allTaken maxDraws), store, draws)
  | steps + 1, c, store, draws =>
    let (c, store, draws) := c.step q clock store draws
    run q clock steps c store draws

/-- Creates a run, from the first draw to the end. -/
def complete (q : RunRequest) (clock : Readings) (store : RunStore) (draws : Draws) :
    Except OrchestratorError (RunId × Notice) × RunStore × Draws :=
  run q clock (2 * maxDraws + 1) (.drawing maxDraws) store draws

end Creation
end JobGate
