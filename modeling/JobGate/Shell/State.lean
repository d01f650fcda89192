/-
The state of a script that is carried out.

What is printed goes to numbered streams, so that the output of a part of a script
can be taken out and given to another part.  The first streams are fixed: one that
is thrown away, and the two that the script itself was given.
-/
import JobGate.Shell.Syntax
import JobGate.Shell.Tools

namespace JobGate
namespace Shell

/-- The stream of what is thrown away. -/
def nowhere : Nat := 0

def outputStream : Nat := 1

def errorStream : Nat := 2

/-- The state of a script. -/
structure State where
  /-- What the script is called in messages. -/
  name : String
  args : List String := []
  bindings : List (String × String) := []
  exported : List String := []
  functions : List (String × Command) := []
  /-- In a function, the values that its own variables had outside. -/
  outside : Option (List (String × Option String)) := none
  traps : List (String × String) := []
  /-- Variables that keep their values. -/
  fixed : List String := []
  /-- How many loops are under way. -/
  loops : Nat := 0
  /-- The parts that were carried out beside the script, the last first, each with
  the number that it is known by and its status. -/
  beside : List (String × Nat) := []
  /-- Whether commands are reported before they are carried out. -/
  traced : Bool := false
  status : Nat := 0
  line : Nat := 1
  directory : Host.Names := Host.home
  input : List UInt8 := []
  /-- The streams of the descriptors that are open for printing. -/
  descriptors : List (Nat × Nat) := [(1, outputStream), (2, errorStream)]
  /-- What was printed, the last first. -/
  printed : List (Nat × List UInt8) := []
  /-- The streams of the files that were written. -/
  files : List (Host.Names × Nat) := []
  nextStream : Nat := 3
  /-- Whether a failure ends the script. -/
  strict : Bool := false
  /-- Whether an unset parameter ends the script. -/
  strictUnset : Bool := false
  /-- Whether a failure is being asked for, so that it does not end the script. -/
  tested : Bool := false

/-- Why the commands that follow are not carried out. -/
inductive Stop
  | exit (status : Nat)
  /-- A signal has ended the process. -/
  | killed (signal : String)
  /-- So many loops are left. -/
  | leave (loops : Nat)
  /-- The next round of the outermost of so many loops begins. -/
  | again (loops : Nat)
  | returned (status : Nat)
  /-- The script goes deeper than it is followed. -/
  | lost

/-- A part of a script that is carried out. -/
abbrev Run := ExceptT Stop (StateM State)

namespace Run

def setStatus (n : Nat) : Run Unit := modify fun s => { s with status := n }

def printTo (stream : Nat) (bytes : List UInt8) : Run Unit :=
  if bytes.isEmpty || stream = nowhere then pure ()
  else modify fun s => { s with printed := (stream, bytes) :: s.printed }

def print (descriptor : Nat) (bytes : List UInt8) : Run Unit := do
  printTo (((← get).descriptors.lookup descriptor).getD nowhere) bytes

def complain (message : String) : Run Unit := do
  let s ← get
  print 2 (Format.encode (s.name ++ ": " ++ toString s.line ++ ": " ++ message ++ "\n"))

def abort {α : Type} (status : Nat) (message : String) : Run α := do
  complain message
  setStatus status
  throw (.exit status)

def newStream : Run Nat := do
  let n := (← get).nextStream
  modify fun s => { s with nextStream := n + 1 }
  return n

end Run

namespace State

def contents (s : State) (stream : Nat) : List UInt8 :=
  ((s.printed.filter fun p => p.1 = stream).reverse.map (·.2)).flatten

/-- The state without what was printed to a stream. -/
def without (s : State) (stream : Nat) : State :=
  { s with printed := s.printed.filter fun p => p.1 ≠ stream }

/-- The number by which a script knows itself. -/
def process : String := "4711"

/-- The number by which the next part beside a script is known. -/
def nextProcess (s : State) : String := toString (4712 + s.beside.length)

def assign (s : State) (name value : String) : State :=
  { s with bindings := (name, value) :: s.bindings.filter fun v => v.1 ≠ name }

def unset (s : State) (name : String) : State :=
  { s with bindings := s.bindings.filter fun v => v.1 ≠ name
           exported := s.exported.filter (· ≠ name) }

/-- Sets a variable to what it was, or removes it if it was not set. -/
def restore (s : State) (name : String) : Option String → State
  | some value => s.assign name value
  | none => s.unset name

def parameter? (s : State) (name : String) : Option String :=
  match name with
  | "#" => some (toString s.args.length)
  | "?" => some (toString s.status)
  | "-" => some ""
  | "$" => some process
  | "!" => some ((s.beside.head?.map (·.1)).getD "")
  | "0" => some s.name
  | "LINENO" => some (toString s.line)
  | name =>
    match name.toNat? with
    | some n => if n = 0 then some s.name else s.args[n - 1]?
    | none => s.bindings.lookup name

def separators (s : State) : List Char := ((s.bindings.lookup "IFS").getD " \t\n").toList

def environment (s : State) : List (String × String) :=
  s.bindings.filter fun v => s.exported.contains v.1

/-- What stands in a file, or why it cannot be read. -/
def read (s : State) (path : String) (limit : Nat) : Except String (List UInt8) :=
  match Host.resolve s.directory path with
  | (names, l) =>
    match s.files.lookup names with
    | some stream => .ok (s.contents stream)
    | none =>
      match l with
      | .found .directory => .error "Is a directory"
      | .found .device =>
        if names = ["dev", "zero"] then .ok (List.replicate limit 0)
        else if names = ["dev", "stdin"] then .ok s.input
        else .ok []
      | .found _ => .ok []
      | .missing => .error "No such file or directory"
      | .noDirectory => .error "Not a directory"
      | .nameTooLong => .error "File name too long"

end State

/-- The text of bytes.  Bytes that are no text are taken one by one. -/
def decode (bytes : List UInt8) : String :=
  (String.fromUTF8? ⟨bytes.toArray⟩).getD (String.ofList (bytes.map fun b => Char.ofNat b.toNat))

end Shell
end JobGate
