/-
What is executed for a run: the program of the job that has the run's key.

What becomes of a program is up to the platform, which is a parameter: it starts a
program or says why it does not, and says of a program that it has started, each
time that it is asked, whether the program has ended.  A worker that was asked to
stop asks once more, and stops a program that is still running.

A run whose job cannot be executed fails like one whose program fails.  A report
sums an execution up in one line, the last that was printed: a program that fails
is asked for its last message first.
-/
import JobGate.Settings.Basic
import JobGate.Text.Lines
import JobGate.Worker.Task

namespace JobGate
namespace Jobs

/-- Why a platform does not start a program. -/
inductive StartFault
  | missing
  | refused (reason : String)
deriving DecidableEq, Repr

inductive Fault
  | notConfigured (key : String)
  | noCommand (key : String)
  | notStarted (program : String) (fault : StartFault)
  /-- The platform does not say whether the program has ended. -/
  | notFollowed (program reason : String)
deriving DecidableEq, Repr

def Fault.message : Fault → String
  | notConfigured key => "job `" ++ key ++ "` is not configured"
  | noCommand key => "job `" ++ key ++ "` has an empty command"
  | notStarted program .missing => "command `" ++ program ++ "` was not found"
  | notStarted program (.refused reason) => "failed to start `" ++ program ++ "`: " ++ reason
  | notFollowed program reason => "failed to wait for `" ++ program ++ "`: " ++ reason

def Fault.report (f : Fault) : Report := ⟨false, f.message⟩

/-- A program to be started. -/
structure Command where
  program : String
  args : List String
  directory : Option String
deriving DecidableEq, Repr

def command? (jobs : List (String × Job)) (key : String) : Except Fault Command :=
  match jobs.lookup key with
  | none => .error (.notConfigured key)
  | some job =>
    match job.command with
    | [] => .error (.noCommand key)
    | program :: args => .ok ⟨program, args, job.directory⟩

abbrev Environment := List (String × String)

/-- What a program learns about the run it is started for. -/
def environment (d : Dispatch) : Environment :=
  [("RUNBRIDGE_RUN_ID", d.run.text), ("RUNBRIDGE_JOB_KEY", d.jobKey)]

/-- How a program ended: with a status, or by a signal. -/
inductive Exit
  | status (n : Int)
  | signal
deriving DecidableEq, Repr

/-- What a program that has ended leaves behind. -/
structure Ended where
  exit : Exit
  output : List UInt8
  errors : List UInt8

/-- What a platform says of a program that it has started. -/
inductive Progress
  | running
  | ended (e : Ended)
  | unknown (reason : String)

/-- Starts programs.  What it says of a program depends on how often it was asked. -/
abbrev Platform := Command → Environment → Except StartFault (Nat → Progress)

/-- The last line of what was printed, blank lines aside.  What is no text has no
lines. -/
def lastLine? (printed : List UInt8) : Option String :=
  let text := (String.fromUTF8? ⟨printed.toArray⟩).getD ""
  ((Text.lines text.toList).reverse.map fun l => Text.trim (String.ofList l)).find? (!·.isEmpty)

/-- The longest summary, in characters. -/
def longestSummary : Nat := 500

/-- The beginning of a text that fits into a summary. -/
def clip (s : String) : String := String.ofList (s.toList.take longestSummary)

def report (e : Ended) : Report :=
  match e.exit with
  | .status 0 => ⟨true, clip ((lastLine? e.output).getD "completed")⟩
  | exit =>
    let code :=
      match exit with
      | .status n => toString n
      | .signal => "signal"
    match (lastLine? e.errors).or (lastLine? e.output) with
    | some line => ⟨false, clip ("exit " ++ code ++ ": " ++ line)⟩
    | none => ⟨false, clip ("exit " ++ code)⟩

def canceled : Report := ⟨false, "execution canceled"⟩

/-- What a worker reports after a look at a program, if the look decides it.  Only a
program that is still running is stopped. -/
def Progress.report? (program : String) (stopped : Bool) : Progress → Option Report
  | .running => if stopped then some canceled else none
  | .ended e => some (report e)
  | .unknown reason => some (Fault.notFollowed program reason).report

/-- What a worker reports after so many looks at a program. -/
def follow (program : String) (progress : Nat → Progress) (stopped : Nat → Bool) :
    Nat → Option Report
  | 0 => none
  | n + 1 =>
    (follow program progress stopped n).or ((progress n).report? program (stopped n))

/-- Executes the job of a dispatch: the report, if there is one after so many looks at
the program.  At each look the worker may have been asked to stop. -/
def executed? (platform : Platform) (jobs : List (String × Job)) (d : Dispatch)
    (stopped : Nat → Bool) (looks : Nat) : Option Report :=
  match command? jobs d.jobKey with
  | .error fault => some fault.report
  | .ok c =>
    match platform c (environment d) with
    | .error fault => some (Fault.notStarted c.program fault).report
    | .ok progress => follow c.program progress stopped looks

end Jobs
end JobGate
