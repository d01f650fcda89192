/-
Settings read from a YAML text.

What is not written keeps its default, and what is written under an unknown name
is not looked at.  A setting may be written once; of jobs with one key the last
stays.  An empty value is a value without entries, and where a value may be
absent, `null` is its absence.
-/
import JobGate.Settings.Basic
import JobGate.Yaml.Document

namespace JobGate
namespace Settings

open Yaml (Node Style)

/-- A reader of a setting. -/
abbrev Reader (α : Type) := Node → Option α

/-! ## Readers of single values -/

/-- A text: any scalar, as it is written. -/
def text : Reader String
  | .scalar _ _ s => some s
  | _ => none

/-- The text of a scalar that need not be a text: a plain one, or a literal one
with the tag of what is wanted. -/
def bareText (tag : String) : Reader String
  | .scalar .plain _ s => some s
  | .scalar .literal (some t) s => if t = tag then some s else none
  | _ => none

def digit? (base : Nat) (c : Char) : Option Nat :=
  (Yaml.hexValue? c).filter (· < base)

/-- The number that digits stand for, of which there is at least one. -/
def digits? (base : Nat) (cs : List Char) : Option Nat :=
  if cs.isEmpty then none
  else cs.foldl (fun n c => do return (← n) * base + (← digit? base c)) (some 0)

/-- The number that a text stands for: decimal without leading zeros, or with the
mark of another base in front. -/
def number? (cs : List Char) : Option Nat :=
  let cs :=
    match cs with
    | '+' :: rest => rest
    | cs => cs
  match cs with
  | '0' :: 'x' :: rest => digits? 16 rest
  | '0' :: 'o' :: rest => digits? 8 rest
  | '0' :: 'b' :: rest => digits? 2 rest
  | '0' :: _ :: _ => none
  | cs => digits? 10 cs

/-- The highest number that a setting can be, `2 ^ 64 - 1`. -/
def highest : Nat := 18446744073709551615

def natural : Reader Nat := fun n =>
  (bareText "tag:yaml.org,2002:int" n).bind fun s => (number? s.toList).filter (· ≤ highest)

def truth : Reader Bool := fun n =>
  (bareText "tag:yaml.org,2002:bool" n).bind fun s =>
    if ["true", "True", "TRUE"].contains s then some true
    else if ["false", "False", "FALSE"].contains s then some false
    else none

def isNullWord (s : String) : Bool := ["null", "Null", "NULL", "~"].contains s

def nullable {α : Type} (read : Reader α) : Reader (Option α) := fun n =>
  match n with
  | .scalar .plain none s => if s.isEmpty || isNullWord s then some none else (read n).map some
  | .scalar .plain (some t) s =>
    if t = "tag:yaml.org,2002:null" then if isNullWord s then some none else none
    else (read n).map some
  | n => (read n).map some

/-- A kind of queue, which may also be written as a tag without a value. -/
def backendKind : Reader BackendKind
  | .scalar style (some t) s =>
    if t.startsWith "!" then
      if style = .plain && (s.isEmpty || isNullWord s) then
        BackendKind.ofName? (String.ofList (t.toList.drop 1))
      else none
    else BackendKind.ofName? s
  | .scalar _ none s => BackendKind.ofName? s
  | _ => none

/-! ## Collections -/

def isEmptyNode : Node → Bool
  | .scalar .plain _ s => s.isEmpty
  | _ => false

def list {α : Type} (read : Reader α) : Reader (List α) := fun n =>
  match n with
  | .list elements => elements.mapM read
  | n => if isEmptyNode n then some [] else none

def entries : Reader (List (String × Node)) := fun n =>
  match n with
  | .mapping entries => entries.mapM fun (k, v) => (text k).map fun k => (k, v)
  | n => if isEmptyNode n then some [] else none

def hasRepeated : List String → Bool
  | [] => false
  | s :: rest => rest.contains s || hasRepeated rest

/-- The entries that have one of some names, none of them twice. -/
def fields (names : List String) : Reader (List (String × Node)) := fun n =>
  match entries n with
  | none => none
  | some es =>
    let known := es.filter fun e => names.contains e.1
    if hasRepeated (known.map (·.1)) then none else some known

/-- The value of a field, or a default where the field is absent. -/
def field {α : Type} (fs : List (String × Node)) (name : String) (read : Reader α)
    (default : α) : Option α :=
  match fs.lookup name with
  | some n => read n
  | none => some default

/-- Puts a text into a sorted list, unless it is there. -/
def insertText (s : String) : List String → List String
  | [] => [s]
  | t :: rest =>
    if s = t then t :: rest
    else if s < t then s :: t :: rest
    else t :: insertText s rest

/-- Puts a job into a list sorted by keys, in place of one with its key. -/
def insertJob (key : String) (job : Job) : List (String × Job) → List (String × Job)
  | [] => [(key, job)]
  | (k, j) :: rest =>
    if key = k then (key, job) :: rest
    else if key < k then (key, job) :: (k, j) :: rest
    else (k, j) :: insertJob key job rest

/-! ## Settings -/

def queueSettings : Reader QueueSettings := fun n => do
  let fs ← fields
    ["backend", "capacity", "sqlite_path", "lock_timeout_seconds", "reclaim_interval_seconds"] n
  let d : QueueSettings := {}
  return {
    backend := ← field fs "backend" backendKind d.backend
    capacity := ← field fs "capacity" natural d.capacity
    path := ← field fs "sqlite_path" (nullable text) d.path
    lockTimeout := ← field fs "lock_timeout_seconds" natural d.lockTimeout
    reclaimInterval := ← field fs "reclaim_interval_seconds" natural d.reclaimInterval }

def workerSettings : Reader WorkerSettings := fun n => do
  let fs ← fields ["count", "min_poll_ms", "max_poll_ms"] n
  let d : WorkerSettings := {}
  return {
    count := ← field fs "count" natural d.count
    shortestPoll := ← field fs "min_poll_ms" natural d.shortestPoll
    longestPoll := ← field fs "max_poll_ms" natural d.longestPoll }

def approvalSettings : Reader ApprovalSettings := fun n => do
  let fs ← fields ["allow_requester", "approvers"] n
  let d : ApprovalSettings := {}
  let approvers ← field fs "approvers" (list text) d.approvers
  return {
    allowRequester := ← field fs "allow_requester" truth d.allowRequester
    approvers := approvers.foldl (fun sorted s => insertText s sorted) [] }

def runSettings : Reader RunSettings := fun n => do
  let fs ← fields ["timeout_seconds"] n
  return { timeout := ← field fs "timeout_seconds" (nullable natural) none }

/-- A job.  Its command may not be absent. -/
def job : Reader Job := fun n => do
  let fs ← fields ["command", "working_dir"] n
  return {
    command := ← (fs.lookup "command").bind (list text)
    directory := ← field fs "working_dir" (nullable text) none }

def jobTable : Reader (List (String × Job)) := fun n => do
  let es ← entries n
  let read ← es.mapM fun (k, v) => (job v).map fun j => (k, j)
  return read.foldl (fun sorted e => insertJob e.1 e.2 sorted) []

def ofNode : Reader Settings := fun n => do
  let fs ← fields ["queue", "workers", "approval", "runs", "jobs"] n
  return {
    queue := ← field fs "queue" queueSettings {}
    workers := ← field fs "workers" workerSettings {}
    approval := ← field fs "approval" approvalSettings {}
    runs := ← field fs "runs" runSettings {}
    jobs := ← field fs "jobs" jobTable [] }

/-- Reads settings; a text without a document holds the defaults. -/
def parse? (text : String) : Option Settings :=
  match Yaml.document? text with
  | none => none
  | some none => some {}
  | some (some n) => ofNode n

end Settings
end JobGate
