/-
The commands that are part of the shell and call no other command.

Each is given its arguments and sets the status.
-/
import JobGate.Shell.State

namespace JobGate
namespace Shell
namespace Builtins

open Run

/-- The number in an argument of a command that ends something. -/
def statusOf (name : String) (args : List String) (usual : Nat) : Run Nat := do
  match args with
  | [] => return usual
  | a :: _ =>
    if a.toList.all Char.isDigit && !a.isEmpty then return a.toNat?.getD 0
    else abort 2 (name ++ ": Illegal number: " ++ a)

def echo (args : List String) : Run Unit := do
  let (quiet, args) :=
    match args with
    | "-n" :: rest => (true, rest)
    | args => (false, args)
  let text := " ".intercalate args
  let p := Format.printEscaped Format.shellText (text.length + 1) text.toList
  print 1 (p.bytes ++ (if quiet || p.stopped then [] else [10]))
  setStatus 0

def printf (args : List String) : Run Unit := do
  match args with
  | [] | ["--"] => abort 2 "printf: usage: printf format [arg ...]"
  | "--" :: format :: args | format :: args =>
    let (bytes, faults) := Format.print Format.shellFormat format args
    for f in faults do
      complain ("printf: " ++ f.message)
    print 1 bytes
    if faults.any Format.Fault.isFatal then throw (.exit 2)
    setStatus (if faults.isEmpty then 0 else 1)

def condition (name : String) (args : List String) : Run Unit := do
  let args? := if name = "[" then
      if args.getLast? = some "]" then some args.dropLast else none
    else some args
  match args? with
  | none =>
    complain "[: missing ]"
    setStatus 2
  | some args =>
    match Condition.holds (← get).directory args with
    | .ok b => setStatus (if b then 0 else 1)
    | .error f =>
      complain (name ++ ": " ++ f.message)
      setStatus 2

def cd (args : List String) : Run Unit := do
  let s ← get
  let path := match args.filter (fun a => a ≠ "--" && a ≠ "-P" && a ≠ "-L") with
    | [] => (s.bindings.lookup "HOME").getD ""
    | "-" :: _ => (s.bindings.lookup "OLDPWD").getD (Host.pathOf s.directory)
    | p :: _ => p
  match Host.resolve s.directory path with
  | (names, .found .directory) =>
    if args.contains "-" then print 1 (Format.encode (Host.pathOf names ++ "\n"))
    modify fun s => (({ s with directory := names }).assign "PWD" (Host.pathOf names)).assign
      "OLDPWD" (Host.pathOf s.directory)
    setStatus 0
  | _ =>
    complain ("cd: can't cd to " ++ path)
    setStatus 2

/-- Takes the next line of the input: its characters, marked where they were
escaped, what follows, and whether the line was ended. -/
def takeLine (raw : Bool) : List UInt8 → List (UInt8 × Bool) × List UInt8 × Bool
  | [] => ([], [], false)
  | 10 :: rest => ([], rest, true)
  | [b] => ([(b, false)], [], false)
  | b :: c :: rest =>
    if b = 92 && !raw then
      let (line, rest, ended) := takeLine raw rest
      (if c = 10 then line else (c, true) :: line, rest, ended)
    else
      let (line, rest, ended) := takeLine raw (c :: rest)
      ((b, false) :: line, rest, ended)

def lineText (line : List (UInt8 × Bool)) : String := decode (line.map (·.1))

/-- Divides a line between variables; the last one gets what is left. -/
def divide (separators : List Char) : List String → List Char → List (String × String)
  | [], _ => []
  | [name], cs =>
    let blank (c : Char) : Bool := separators.contains c && (c = ' ' || c = '\t')
    let cs := ((cs.dropWhile blank).reverse.dropWhile blank).reverse
    [(name, String.ofList cs)]
  | name :: names, cs =>
    let blank (c : Char) : Bool := separators.contains c && (c = ' ' || c = '\t')
    let cs := cs.dropWhile blank
    let field := cs.takeWhile (!separators.contains ·)
    let rest := (cs.drop field.length).dropWhile blank
    let rest := match rest with
      | c :: more => if separators.contains c then more else c :: more
      | [] => []
    (name, String.ofList field) :: divide separators names rest

def read (args : List String) : Run Unit := do
  let s ← get
  let (line, rest, ended) := takeLine (args.contains "-r") s.input
  let names := args.filter fun a => a.toList.head? ≠ some '-'
  let names := if names.isEmpty then ["REPLY"] else names
  let values := divide s.separators names (lineText line).toList
  modify fun s => values.foldl (fun s v => s.assign v.1 v.2) { s with input := rest }
  setStatus (if ended then 0 else 1)

/-- The name and the value of an argument that assigns. -/
def assignmentOf (a : String) : String × Option String :=
  let name := a.toList.takeWhile (· ≠ '=')
  if name.length = a.length then (a, none)
  else (String.ofList name, some (String.ofList (a.toList.drop (name.length + 1))))

def exportAll (args : List String) : Run Unit := do
  for a in args do
    let (name, value) := assignmentOf a
    if let some v := value then modify fun s => s.assign name v
    modify fun s => { s with exported := name :: s.exported }
  setStatus 0

/-- Sets a variable that does not keep its value. -/
def assign (name value : String) : Run Unit := do
  if (← get).fixed.contains name then abort 2 (name ++ ": is read only")
  modify fun s => s.assign name value

def declare (args : List String) : Run Unit := do
  for a in args do
    let (name, value) := assignmentOf a
    if let some v := value then assign name v
  setStatus 0

def fix (args : List String) : Run Unit := do
  declare args
  modify fun s => { s with fixed := args.map (fun a => (assignmentOf a).1) ++ s.fixed }

/-- Makes variables a function's own.  They keep their values until they get others. -/
def declareOwn (args : List String) : Run Unit := do
  let s ← get
  let some outside := s.outside | abort 2 "local: not in a function"
  let names := args.map fun a => (assignmentOf a).1
  set { s with outside := names.map (fun n => (n, s.bindings.lookup n)) ++ outside }
  declare args

def unset (args : List String) : Run Unit := do
  for a in args do
    if args.head? = some "-f" then
      modify fun s => { s with functions := s.functions.filter fun f => f.1 ≠ a }
    else modify fun s => s.unset a
  setStatus 0

def set (args : List String) : Run Unit := do
  let isOption (a : String) : Bool :=
    2 ≤ a.length && (a.toList.head? = some '-' || a.toList.head? = some '+') && a ≠ "--"
  let options := args.takeWhile isOption
  for o in options do
    let on := o.toList.head? = some '-'
    let marks := o.toList.drop 1
    if marks.contains 'e' then modify fun s => { s with strict := on }
    if marks.contains 'u' then modify fun s => { s with strictUnset := on }
    if marks.contains 'x' then modify fun s => { s with traced := on }
  match args.drop options.length with
  | [] => pure ()
  | "--" :: rest => modify fun s => { s with args := rest }
  | rest => modify fun s => { s with args := rest }
  setStatus 0

def shift (args : List String) : Run Unit := do
  let n ← statusOf "shift" args 1
  if (← get).args.length < n then abort 2 "shift: can't shift that many"
  modify fun s => { s with args := s.args.drop n }
  setStatus 0

/-- A signal with what is said about a process that it has ended, if anything is. -/
structure Signal where
  number : Nat
  name : String
  epitaph : String := ""

def signals : List Signal :=
  [⟨0, "EXIT", ""⟩, ⟨1, "HUP", "Hangup"⟩, ⟨2, "INT", ""⟩, ⟨3, "QUIT", "Quit"⟩,
    ⟨4, "ILL", "Illegal instruction"⟩, ⟨5, "TRAP", "Trace/breakpoint trap"⟩,
    ⟨6, "ABRT", "Aborted"⟩, ⟨7, "BUS", "Bus error"⟩, ⟨8, "FPE", "Floating point exception"⟩,
    ⟨9, "KILL", "Killed"⟩, ⟨10, "USR1", "User defined signal 1"⟩,
    ⟨11, "SEGV", "Segmentation fault"⟩, ⟨12, "USR2", "User defined signal 2"⟩,
    ⟨13, "PIPE", ""⟩, ⟨14, "ALRM", "Alarm clock"⟩, ⟨15, "TERM", "Terminated"⟩,
    ⟨17, "CHLD", ""⟩, ⟨18, "CONT", ""⟩, ⟨23, "URG", ""⟩, ⟨28, "WINCH", ""⟩]

/-- The name of a signal that is given by its number or its name. -/
def signalName (s : String) : String :=
  let s := if "SIG".toList.isPrefixOf s.toList then String.ofList (s.toList.drop 3) else s
  ((signals.find? fun x => toString x.number = s).map (·.name)).getD s

/-- The status of a process that a signal has ended, after what is said about it. -/
def bury (signal : String) : Run Unit := do
  let s := (signals.find? (·.name = signal)).getD ⟨0, signal, ""⟩
  if !s.epitaph.isEmpty then print 2 (Format.encode (s.epitaph ++ "\n"))
  setStatus (128 + s.number)

/-- The signals that do nothing to a process that does not wait for them. -/
def harmless : List String := ["EXIT", "CHLD", "CONT", "URG", "WINCH"]

/-- The signal that arguments ask for, and to whom it is sent. -/
def signalOf : List String → String × List String
  | "-s" :: name :: rest => (signalName name, rest)
  | "--" :: rest => ("TERM", rest)
  | a :: rest =>
    match a.toList with
    | '-' :: name => (signalName (String.ofList name), rest)
    | _ => ("TERM", a :: rest)
  | [] => ("TERM", [])

/-- Sends a signal; the answer is the signal that reaches the shell itself and does
something to it. -/
def kill (args : List String) : Run (Option String) := do
  let beside := (← get).beside
  let (signal, targets) := signalOf args
  if args.head? = some "-l" then
    for n in args.tail do
      print 1 (Format.encode (signalName n ++ "\n"))
    setStatus 0
    return none
  if !signals.any (·.name = signal) then
    abort 2 ("kill: Illegal option -" ++ String.ofList (signal.toList.take 1))
  if targets.isEmpty then
    abort 2 "kill: Usage: kill [-s sigspec | -signum | -sigspec] [pid | job]..."
  if let some t := targets.find? fun t => !t.toList.all Char.isDigit then
    abort 2 ("kill: Illegal number: " ++ t)
  if targets.all fun t => (beside.lookup t).isSome then
    setStatus 0
    return none
  if !targets.any fun t => t = State.process || t = "0" then
    complain "kill: No such process"
    setStatus 1
    return none
  setStatus 0
  return if harmless.contains signal then none else some signal

def trap (args : List String) : Run Unit := do
  let (action, names) : Option String × List String :=
    match args with
    | "-" :: names => (none, names)
    | "--" :: action :: names => (some action, names)
    | [name] => (none, [name])
    | action :: names => (some action, names)
    | [] => (none, [])
  for n in names do
    let n := signalName n
    modify fun s =>
      let others := s.traps.filter fun t => t.1 ≠ n
      { s with traps := match action with
          | some a => (n, a) :: others
          | none => others }
  setStatus 0

/-- How many loops an argument is about; more than are under way are all of them. -/
def loopsOf (name : String) (args : List String) : Run Nat := do
  let n ← statusOf name args 1
  if n = 0 then abort 2 (name ++ ": Illegal number: 0")
  return min n (← get).loops

def leave (args : List String) : Run Unit := do
  match ← loopsOf "break" args with
  | 0 => setStatus 0
  | n => throw (.leave n)

/-- Begins the next round of a loop, if any is under way. -/
def again (args : List String) : Run Unit := do
  match ← loopsOf "continue" args with
  | 0 => setStatus 0
  | n => throw (.again n)

/-- Waits for what was carried out beside the script, which has ended already. -/
def wait (args : List String) : Run Unit := do
  let beside := (← get).beside
  match args.getLast? with
  | none => setStatus 0
  | some process => setStatus ((beside.lookup process).getD 127)

/-- The commands of this module and those that need others. -/
def names : List String :=
  [".", ":", "[", "break", "cd", "command", "continue", "echo", "eval", "exec", "exit", "export",
    "false", "hash", "jobs", "kill", "local", "printf", "pwd", "read", "readonly", "return", "set",
    "shift", "test", "times", "trap", "true", "type", "umask", "unset", "wait"]

/-- Prints where commands are.  Those of the shell are where they are called. -/
def locate (called : List String) : Run Unit := do
  let s ← get
  let found := called.filterMap fun n =>
    if names.contains n || (s.functions.lookup n).isSome then some n
    else
      match Host.program? s.directory n with
      | .ok p => some (if n.toList.contains '/' then n else "/usr/bin/" ++ p)
      | .error _ => none
  print 1 (Format.encode ("".intercalate (found.map (· ++ "\n"))))
  setStatus (if found.length = called.length then 0 else 127)

def describe (called : List String) : Run Unit := do
  let s ← get
  for n in called do
    let (text, status) :=
      if names.contains n then (" is a shell builtin", 0)
      else
        match Host.program? s.directory n with
        | .ok p => (" is /usr/bin/" ++ p, 0)
        | .error _ => (": not found", 127)
    print 1 (Format.encode (n ++ text ++ "\n"))
    setStatus status

/-- The commands whose faults end a script. -/
def special : List String :=
  [".", ":", "break", "continue", "eval", "exec", "exit", "export", "readonly", "return", "set",
    "shift", "times", "trap", "unset"]

/-- Carries out a command that calls no other; the answer is whether there is such a
command. -/
def call (name : String) (args : List String) : Run Bool := do
  match name with
  | ":" | "true" | "times" | "hash" | "jobs" => setStatus 0
  | "wait" => wait args
  | "type" => describe args
  | "umask" =>
    if args.isEmpty then print 1 (Format.encode "0022\n")
    setStatus 0
  | "false" => setStatus 1
  | "echo" => echo args
  | "printf" => printf args
  | "test" | "[" => condition name args
  | "pwd" =>
    print 1 (Format.encode (Host.pathOf (← get).directory ++ "\n"))
    setStatus 0
  | "cd" => cd args
  | "read" => read args
  | "export" => exportAll args
  | "readonly" => fix args
  | "local" => declareOwn args
  | "unset" => unset args
  | "set" => set args
  | "shift" => shift args
  | "trap" => trap args
  | "exit" => throw (.exit (← statusOf name args (← get).status))
  | "return" => throw (.returned (← statusOf name args (← get).status))
  | "break" => leave args
  | "continue" => again args
  | _ => return false
  return true

end Builtins
end Shell
end JobGate
