/-
The settings of a desk, and which of them it can work with.

Settings can be read without being usable: `fault?` names the first thing that is
wrong, in the order in which the settings are listed to a reader.  What runs on
settings may rely on there being no fault.
-/
import JobGate.Text.Blank

namespace JobGate

/-- The kinds of queue that can be asked for. -/
inductive BackendKind
  | memory
  | table
deriving DecidableEq, Repr

namespace BackendKind

def name : BackendKind → String
  | memory => "memory"
  | table => "sqlite"

def ofName? (s : String) : Option BackendKind := [memory, table].find? (·.name = s)

end BackendKind

/-- Settings of the queue.  Times are in seconds. -/
structure QueueSettings where
  backend : BackendKind := .memory
  capacity : Nat := 64
  path : Option String := none
  lockTimeout : Nat := 300
  reclaimInterval : Nat := 30
deriving DecidableEq, Repr

/-- Settings of the workers.  Times are in milliseconds. -/
structure WorkerSettings where
  count : Nat := 4
  shortestPoll : Nat := 100
  longestPoll : Nat := 1000
deriving DecidableEq, Repr

/-- Who may decide on a run.  The approvers are sorted, and none is listed
twice. -/
structure ApprovalSettings where
  allowRequester : Bool := true
  approvers : List String := []
deriving DecidableEq, Repr

/-- Settings of runs.  The timeout is in seconds. -/
structure RunSettings where
  timeout : Option Nat := none
deriving DecidableEq, Repr

/-- What is executed for a job: a program with its arguments, and where. -/
structure Job where
  command : List String
  directory : Option String := none
deriving DecidableEq, Repr

/-- All settings.  The jobs are sorted by their keys. -/
structure Settings where
  queue : QueueSettings := {}
  workers : WorkerSettings := {}
  approval : ApprovalSettings := {}
  runs : RunSettings := {}
  jobs : List (String × Job) := []
deriving DecidableEq, Repr

/-- Why settings cannot be used. -/
inductive SettingsFault
  | noCapacity
  | noLockTimeout
  | noReclaimInterval
  | noPath
  | noWorkers
  | badPolling
  | nobodyDecides
  | blankApprover
  | noRunTimeout
  | badJobKey (key : String)
  | noCommand (key : String)
deriving DecidableEq, Repr

def SettingsFault.message : SettingsFault → String
  | noCapacity => "`queue.capacity` must be greater than zero"
  | noLockTimeout => "`queue.lock_timeout_seconds` must be greater than zero"
  | noReclaimInterval => "`queue.reclaim_interval_seconds` must be greater than zero"
  | noPath => "`queue.sqlite_path` is required when `queue.backend` is `sqlite`"
  | noWorkers => "`workers.count` must be greater than zero"
  | badPolling => "`workers.min_poll_ms` must be positive and not exceed `workers.max_poll_ms`"
  | nobodyDecides => "`approval` must allow the requester or list at least one approver"
  | blankApprover => "`approval.approvers` entries must be non-empty"
  | noRunTimeout => "`runs.timeout_seconds` must be greater than zero when set"
  | badJobKey key => "job key `" ++ key ++ "` must be a single non-empty token"
  | noCommand key => "job `" ++ key ++ "` must declare a non-empty `command`"

namespace Settings

def queueFault? (q : QueueSettings) : Option SettingsFault :=
  if q.capacity = 0 then some .noCapacity
  else if q.lockTimeout = 0 then some .noLockTimeout
  else if q.reclaimInterval = 0 then some .noReclaimInterval
  else if q.backend = .table && q.path.isNone then some .noPath
  else none

def workerFault? (w : WorkerSettings) : Option SettingsFault :=
  if w.count = 0 then some .noWorkers
  else if w.shortestPoll = 0 || w.longestPoll < w.shortestPoll then some .badPolling
  else none

def approvalFault? (a : ApprovalSettings) : Option SettingsFault :=
  if !a.allowRequester && a.approvers.isEmpty then some .nobodyDecides
  else if a.approvers.any Text.isEmptyTrimmed then some .blankApprover
  else none

def runFault? (r : RunSettings) : Option SettingsFault :=
  if r.timeout = some 0 then some .noRunTimeout else none

/-- What is wrong with a job.  Its key has to be a word of a chat message, and
its program has to have a name. -/
def jobFault? (key : String) (job : Job) : Option SettingsFault :=
  if Text.isEmptyTrimmed key || key.toList.any Text.isBlank then some (.badJobKey key)
  else if job.command.head?.all Text.isEmptyTrimmed then some (.noCommand key)
  else none

def fault? (s : Settings) : Option SettingsFault :=
  (queueFault? s.queue).or <| (workerFault? s.workers).or <| (approvalFault? s.approval).or <|
    (runFault? s.runs).or <| s.jobs.findSome? fun (key, job) => jobFault? key job

end Settings
end JobGate
