/-
Scripts carried out.

The functions here call each other along the structure of a script, and loops and
functions of scripts bring them back to the same commands, so their first argument
bounds how deeply they call each other.  A script that goes deeper is lost, and is not
carried on in another way.
-/
import JobGate.Shell.Builtins
import JobGate.Shell.Fields
import JobGate.Shell.Pattern
import JobGate.Shell.Reader

namespace JobGate
namespace Shell
namespace Interpreter

open Run

def hasCommand (w : Word) : Bool :=
  w.any fun p => match p with
    | .command _ _ => true
    | _ => false

/-- Whether a word stands for the positional parameters and nothing else. -/
def isAllArgs (w : Word) : Bool :=
  w.any (fun p => match p with
    | .param "@" .value _ _ => true
    | _ => false) &&
  w.all fun p => match p with
    | .param "@" .value _ _ => true
    | .text s _ => s.isEmpty
    | _ => false

def divisible (ps : List Piece) : List Piece :=
  ps.map fun p => match p with
    | .whole s false => .divisible s
    | p => p

def pieceOf (quoted : Bool) (s : String) : Piece := if quoted then .whole s true else .divisible s

def withoutLineEnd (bytes : List UInt8) : String :=
  decode (((bytes.filter (· ≠ 0)).reverse.dropWhile (· = 10)).reverse)

def allArgs (s : State) (name : String) (quoted : Bool) : List Piece :=
  if quoted && name = "*" then
    [.whole ((s.separators.head?.map String.singleton |>.getD "").intercalate s.args) true]
  else if quoted then (s.args.map fun a => Piece.whole a true).intersperse .boundary
  else (s.args.map Piece.divisible).intersperse (.divisible " ")

/-- Ends a script in which a failure may not go unnoticed. -/
def checkStrict : Run Unit := do
  let s ← get
  if s.strict && !s.tested && s.status ≠ 0 then throw (.exit s.status)

/-- Carries something out and gives what stopped it, if anything did. -/
def caught (r : Run Unit) : Run (Option Stop) :=
  tryCatch (do r; return none) fun
    | .lost => throw .lost
    | stop => return some stop

/-- Carries something out as the condition of something else. -/
def asTest (r : Run Unit) : Run Unit := do
  let before := (← get).tested
  modify fun s => { s with tested := true }
  let stop ← caught r
  modify fun s => { s with tested := before }
  if let some stop := stop then throw stop

/-- Opens a file for printing: its stream, or why it cannot be opened. -/
def openFile (path : String) (append : Bool) : Run (Except String Nat) := do
  let s ← get
  match Host.resolve s.directory path with
  | (["dev", "null"], _) => return .ok nowhere
  | (["dev", "stdout"], _) => return .ok ((s.descriptors.lookup 1).getD nowhere)
  | (["dev", "stderr"], _) => return .ok ((s.descriptors.lookup 2).getD nowhere)
  | (_, .found .directory) => return .error "Is a directory"
  | (_, .found .device) => return .ok nowhere
  | (names, l) =>
    if l = .noDirectory then return .error "Directory nonexistent"
    else if l = .nameTooLong then return .error "File name too long"
    else if l = .missing && (Host.kind? names.dropLast ≠ some .directory ||
        Host.sealedDirectories.any (·.isPrefixOf names)) then
      return .error "Directory nonexistent"
    else
      match s.files.lookup names with
      | some stream =>
        if !append then modify fun s => s.without stream
        return .ok stream
      | none =>
        let stream ← newStream
        modify fun s => { s with files := (names, stream) :: s.files }
        return .ok stream

def openDescriptor (descriptor stream : Nat) : Run Unit :=
  modify fun s => { s with
    descriptors := (descriptor, stream) :: s.descriptors.filter fun d => d.1 ≠ descriptor }

/-- The status and the message of a program that cannot be started. -/
def startFailure : Host.StartFault → Nat × String
  | .noProgram => (126, "Permission denied")
  | .nameTooLong => (127, "File name too long")
  | .notFound | .noDirectory => (127, "not found")

/-- Where the script of a shell comes from. -/
inductive Origin
  | argument (text : String)
  /-- An argument that is missing. -/
  | absent
  | file (path : String)
  | input

/-- How a shell is called: the letters of its options, its script, the name that the
script has for itself, and the script's own arguments. -/
structure ShellCall where
  letters : List Char
  origin : Origin
  name : String
  args : List String

namespace ShellCall

def ofArgs (name : String) (args : List String) : ShellCall :=
  let options := args.takeWhile fun a => 2 ≤ a.length && a.toList.head? = some '-'
  let letters := options.flatMap (·.toList.drop 1)
  let rest := args.drop options.length
  if letters.contains 'c' then
    { letters
      origin := rest.head?.elim .absent .argument
      name := rest.tail.headD name
      args := rest.tail.tail }
  else
    { letters, origin := rest.head?.elim .input .file, name := rest.headD name, args := rest.tail }

/-- The state in which a shell that is called so begins. -/
def entered (c : ShellCall) (s : State) : State :=
  { s with
    name := c.name, args := c.args
    bindings := s.environment, functions := [], outside := none, traps := [], fixed := []
    loops := 0, beside := [], line := 1, tested := false
    strict := c.letters.contains 'e', strictUnset := c.letters.contains 'u'
    traced := c.letters.contains 'x' }

/-- Fails before there is a script. -/
def refuse (shell message : String) : Run (Option String) := do
  modify fun s => { s with name := shell, line := 0 }
  complain message
  setStatus 2
  return none

def script? (c : ShellCall) (shell : String) : Run (Option String) := do
  match c.origin with
  | .argument text => return some text
  | .absent => refuse shell "-c requires an argument"
  | .file path =>
    match (← get).read path Tools.endless with
    | .ok bytes => return some (decode bytes)
    | .error _ => refuse shell ("cannot open " ++ path ++ ": No such file")
  | .input =>
    let s ← get
    set { s with input := [] }
    return some (decode s.input)

end ShellCall

mutual

def expand : Nat → Word → Run (List Piece)
  | 0, _ => throw .lost
  | _, [] => return []
  | fuel + 1, p :: rest => do
    let pieces ← expandPart fuel p
    return pieces ++ (← expand fuel rest)

def expandPart : Nat → Part → Run (List Piece)
  | 0, _ => throw .lost
  | fuel + 1, p => do
    match p with
    | .text s quoted => return [.whole s quoted]
    | .arithmetic e =>
      let text := Piece.text (← expand fuel e)
      let s ← get
      match Arithmetic.evaluate (fun x => s.bindings.lookup x) text with
      | .error f => abort 2 (f.message text)
      | .ok (n, assigned) =>
        modify fun s => assigned.reverse.foldl (fun s a => s.assign a.1 (toString a.2)) s
        return [.whole (toString n) false]
    | .command c quoted =>
      return [pieceOf quoted (withoutLineEnd (← capture fuel c))]
    | .param name use word quoted =>
      let s ← get
      let isArgs := name = "@" || name = "*"
      let value? := if isArgs then
          (if s.args.isEmpty then none else some (" ".intercalate s.args))
        else s.parameter? name
      let value := value?.getD ""
      let pieces := if isArgs then allArgs s name quoted else [pieceOf quoted value]
      let absent (orEmpty : Bool) : Bool := value?.isNone || (orEmpty && value.isEmpty)
      match use with
      | .value =>
        if value?.isNone && !isArgs && s.strictUnset then abort 2 (name ++ ": parameter not set")
        return pieces
      | .length =>
        return [pieceOf quoted (toString (if isArgs then s.args.length else value.utf8ByteSize))]
      | .default orEmpty =>
        if absent orEmpty then
          let ps ← expand fuel word
          return if quoted then [.whole (Piece.text ps) true] else divisible ps
        else return pieces
      | .alternative orEmpty =>
        if absent orEmpty then return [pieceOf quoted ""]
        else
          let ps ← expand fuel word
          return if quoted then [.whole (Piece.text ps) true] else divisible ps
      | .assign orEmpty =>
        if absent orEmpty then
          let text := Piece.text (← expand fuel word)
          modify fun s => s.assign name text
          return [pieceOf quoted text]
        else return pieces
      | .demand orEmpty =>
        if absent orEmpty then
          let text := Piece.text (← expand fuel word)
          abort 2 (name ++ ": " ++ if text.isEmpty then "parameter not set" else text)
        else return pieces
      | .cutEnd longest =>
        let gs ← expandPattern fuel word
        return [pieceOf quoted (String.ofList (Glob.cutEnd gs longest value.toList))]
      | .cutStart longest =>
        let gs ← expandPattern fuel word
        return [pieceOf quoted (String.ofList (Glob.cutStart gs longest value.toList))]

def expandPattern : Nat → Word → Run (List Glob)
  | 0, _ => throw .lost
  | fuel + 1, w => do
    let chars := (← expand fuel w).flatMap Piece.chars
    return Glob.parse (chars.length + 1) chars

def fields : Nat → List Word → Run (List String)
  | 0, _ => throw .lost
  | _, [] => return []
  | fuel + 1, w :: ws => do
    let s ← get
    let first ←
      if isAllArgs w && s.args.isEmpty then pure []
      else do
        let ps ← expand fuel w
        pure (Fields.ofPieces s.separators ps)
    return first ++ (← fields fuel ws)

/-- Carries a command out in a state of its own, and gives its output. -/
def capture : Nat → Command → Run (List UInt8)
  | 0, _ => throw .lost
  | fuel + 1, c => do
    let stream ← newStream
    apart fuel c fun s => { s with
      descriptors := (1, stream) :: s.descriptors.filter fun d => d.1 ≠ 1 }
    let bytes := (← get).contents stream
    modify fun s => s.without stream
    return bytes

/-- Carries a command out in a state of its own.  What it prints and reads stays. -/
def apart : Nat → Command → (State → State) → Run Unit
  | 0, _, _ => throw .lost
  | fuel + 1, c, prepare => do
    let saved ← get
    set (prepare { saved with traps := [] })
    let stop ← caught (finishing fuel (eval fuel c))
    modify fun s => { saved with
      printed := s.printed, files := s.files, nextStream := s.nextStream, input := s.input,
      status := s.status }
    if let some (.killed signal) := stop then throw (.killed signal)

/-- Carries something out to its end: the status is that of its end, and what is to
be done at the exit is done. -/
def finishing : Nat → Run Unit → Run Unit
  | 0, _ => throw .lost
  | fuel + 1, r => do
    match ← caught r with
    | some (.killed signal) => throw (.killed signal)
    | some (.exit n) | some (.returned n) => setStatus n
    | _ => pure ()
    match (← get).traps.lookup "EXIT" with
    | none => pure ()
    | some action =>
      let status := (← get).status
      modify fun s => { s with traps := s.traps.filter fun t => t.1 ≠ "EXIT" }
      match ← caught (runLines "" fuel { rest := action.toList }) with
      | some (.killed signal) => throw (.killed signal)
      | some (.exit n) => setStatus n
      | _ => setStatus status

/-- Carries out the lines of a script.  A label stands in front of messages about
the text. -/
def runLines (label : String) : Nat → Source → Run Unit
  | 0, _ => throw .lost
  | fuel + 1, source => do
    match nextLine source with
    | .error (line, f) =>
      modify fun s => { s with line }
      abort 2 (label ++ f.message)
    | .ok none => return
    | .ok (some (c, source)) =>
      eval fuel c
      runLines label fuel source

/-- Makes a redirection; the answer is whether it could be made. -/
def redirect : Nat → Redirect → Run Bool
  | 0, _ => throw .lost
  | fuel + 1, .mk descriptor kind target => do
    let text := Piece.text (← expand fuel target)
    match kind with
    | .document =>
      modify fun s => { s with input := Format.encode text }
      return true
    | .input =>
      match (← get).read text Tools.endless with
      | .ok bytes =>
        modify fun s => { s with input := bytes }
        return true
      | .error _ =>
        complain ("cannot open " ++ text ++ ": No such file")
        return false
    | .output | .append =>
      match ← openFile text (kind = .append) with
      | .ok stream =>
        openDescriptor descriptor stream
        return true
      | .error fault =>
        complain ("cannot create " ++ text ++ ": " ++ fault)
        return false
    | .duplicate =>
      if text = "-" then
        openDescriptor descriptor nowhere
        return true
      else if descriptor = 0 then return true
      else
        match text.toNat?.bind ((← get).descriptors.lookup ·) with
        | some stream =>
          openDescriptor descriptor stream
          return true
        | none =>
          complain (text ++ ": Bad file descriptor")
          return false

/-- Makes redirections in order, up to the first that cannot be made. -/
def redirectAll : Nat → List Redirect → Run Bool
  | 0, _ => throw .lost
  | _, [] => return true
  | fuel + 1, r :: rest => do
    if ← redirect fuel r then redirectAll fuel rest else return false

def redirected : Nat → List Redirect → Run Unit → Run Unit
  | 0, _, _ => throw .lost
  | fuel + 1, rs, r => do
    if rs.isEmpty then r
    else
      let saved ← get
      let made ← redirectAll fuel rs
      let stop ← if made then caught r else do
        setStatus 2
        pure none
      let reads := rs.any fun (.mk _ kind _) => kind = .input || kind = .document
      modify fun s => { s with
        descriptors := saved.descriptors, input := if reads then saved.input else s.input }
      if let some stop := stop then throw stop

/-- Carries out the body of a loop; the answer is whether the loop goes on. -/
def round : Nat → Command → Run Bool
  | 0, _ => throw .lost
  | fuel + 1, body => do
    let loops := (← get).loops
    modify fun s => { s with loops := loops + 1 }
    let stop ← caught (eval fuel body)
    modify fun s => { s with loops }
    match stop with
    | none => return true
    | some (.leave n) => if 1 < n then throw (.leave (n - 1)) else return false
    | some (.again n) => if 1 < n then throw (.again (n - 1)) else return true
    | some stop => throw stop

/-- Carries out a loop with a condition.  The status is that of the last round. -/
def rounds : Nat → Bool → Command → Command → Nat → Run Unit
  | 0, _, _, _, _ => throw .lost
  | fuel + 1, until_, condition, body, last => do
    asTest (eval fuel condition)
    if ((← get).status = 0) = (until_ = true) then setStatus last
    else if ← round fuel body then rounds fuel until_ condition body (← get).status
    else setStatus 0

def eachRound : Nat → String → List String → Command → Run Unit
  | 0, _, _, _ => throw .lost
  | _, _, [], _ => return
  | fuel + 1, name, v :: vs, body => do
    modify fun s => s.assign name v
    if ← round fuel body then eachRound fuel name vs body

/-- Carries out the first arm that has a pattern for a text. -/
def chooseArm : Nat → String → List (List Word × Command) → Run Unit
  | 0, _, _ => throw .lost
  | _, _, [] => return
  | fuel + 1, text, (ps, body) :: rest => do
    let globs ← ps.mapM (expandPattern fuel)
    if globs.any fun g => Glob.isMatch g text.toList then eval fuel body
    else chooseArm fuel text rest

def eval : Nat → Command → Run Unit
  | 0, _ => throw .lost
  | fuel + 1, c => do
    match c with
    | .nothing => return
    | .simple line words rs =>
      modify fun s => { s with line }
      simple fuel words rs
      checkStrict
    | .redirected body rs => redirected fuel rs (eval fuel body)
    | .subshell body =>
      apart fuel body id
      checkStrict
    | .group body => eval fuel body
    | .branch condition yes no =>
      asTest (eval fuel condition)
      if (← get).status = 0 then eval fuel yes
      else
        setStatus 0
        eval fuel no
    | .repeated until_ condition body => rounds fuel until_ condition body 0
    | .each name words body =>
      let values ← match words with
        | some ws => fields fuel ws
        | none => pure (← get).args
      setStatus 0
      eachRound fuel name values body
    | .choose word arms =>
      let text := Piece.text (← expand fuel word)
      setStatus 0
      chooseArm fuel text arms
    | .define name body =>
      modify fun s => { s with functions := (name, body) :: s.functions }
      setStatus 0
    | .negated body =>
      asTest (eval fuel body)
      setStatus (if (← get).status = 0 then 1 else 0)
    | .pipe left right =>
      let stream ← newStream
      apart fuel left fun s => { s with
        descriptors := (1, stream) :: s.descriptors.filter fun d => d.1 ≠ 1 }
      let bytes := (← get).contents stream
      modify fun s => s.without stream
      let input := (← get).input
      apart fuel right fun s => { s with input := bytes }
      modify fun s => { s with input }
      checkStrict
    | .both left right =>
      asTest (eval fuel left)
      if (← get).status = 0 then eval fuel right
    | .either left right =>
      asTest (eval fuel left)
      if (← get).status ≠ 0 then eval fuel right
    | .sequence first second =>
      eval fuel first
      eval fuel second
    | .background body =>
      apart fuel body id
      modify fun s => { s with beside := (s.nextProcess, s.status) :: s.beside, status := 0 }

def assignAll : Nat → List (String × Word) → Run Unit
  | 0, _ => throw .lost
  | _, [] => return
  | fuel + 1, (name, w) :: rest => do
    Builtins.assign name (Piece.text (← expand fuel w))
    assignAll fuel rest

def simple : Nat → List Word → List Redirect → Run Unit
  | 0, _, _ => throw .lost
  | fuel + 1, words, rs => do
    let (assigned, words) := splitAssignments words
    let called ← fields fuel words
    if (← get).traced then
      let assigned ← assigned.mapM fun (n, w) => return n ++ "=" ++ Piece.text (← expand fuel w)
      print 2 (Format.encode ("+ " ++ " ".intercalate (assigned ++ called) ++ "\n"))
    match called with
    | [] =>
      assignAll fuel assigned
      if !assigned.any fun a => hasCommand a.2 then setStatus 0
      redirected fuel rs (pure ())
    | ["exec"] =>
      assignAll fuel assigned
      if ← redirectAll fuel rs then setStatus 0 else throw (.exit 2)
    | name :: args =>
      redirected fuel rs do
        let saved ← get
        assignAll fuel assigned
        modify fun s => { s with exported := assigned.map (·.1) ++ s.exported }
        let stop ← caught (call fuel name args)
        if !assigned.isEmpty && !Builtins.special.contains name then
          modify fun s => { s with
            bindings := s.bindings.filter (fun v => !assigned.any fun a => a.1 = v.1) ++
              saved.bindings.filter fun v => assigned.any fun a => a.1 = v.1
            exported := saved.exported }
        if let some stop := stop then throw stop

/-- Calls a function, a command of the shell or a program. -/
def call : Nat → String → List String → Run Unit
  | 0, _, _ => throw .lost
  | fuel + 1, name, args => do
    let s ← get
    match s.functions.lookup name with
    | some body =>
      modify fun s => { s with args, outside := some [], loops := 0 }
      let stop ← caught (eval fuel body)
      modify fun now =>
        let now := ((now.outside.getD []).foldl (fun now v => now.restore v.1 v.2) now)
        { now with args := s.args, outside := s.outside, loops := s.loops }
      match stop with
      | some (.returned n) => setStatus n
      | some stop => throw stop
      | none => pure ()
    | none => callOther fuel name args

def callOther : Nat → String → List String → Run Unit
  | 0, _, _ => throw .lost
  | fuel + 1, name, args => do
    let s ← get
    match name with
    | "." =>
      let path := args.headD ""
      match s.read path Tools.endless with
      | .ok bytes =>
        setStatus 0
        runLines "" fuel { rest := (decode bytes).toList }
      | .error _ => abort 2 (".: cannot open " ++ path ++ ": No such file")
    | "eval" =>
      setStatus 0
      runLines "eval: " fuel { rest := (" ".intercalate args).toList, line := (← get).line }
    | "exec" =>
      let program := args.headD ""
      match Host.program? (← get).directory program with
      | .ok _ => callProgram fuel program args.tail
      | .error fault =>
        let (status, reason) := startFailure fault
        complain ("exec: " ++ program ++ ": " ++ reason)
        setStatus status
      throw (.exit (← get).status)
    | "command" =>
      match args with
      | [] => setStatus 0
      | "-v" :: names | "-V" :: names => Builtins.locate names
      | n :: rest => callOther fuel n rest
    | "kill" =>
      if let some signal ← Builtins.kill args then
        match if signal = "KILL" then none else s.traps.lookup signal with
        | none => throw (.killed signal)
        | some action => runLines "" fuel { rest := action.toList }
    | _ => if !(← Builtins.call name args) then callApart fuel name args

def callProgram : Nat → String → List String → Run Unit
  | 0, _, _ => throw .lost
  | fuel + 1, name, args => do
    let s ← get
    match Host.program? s.directory name with
    | .error fault =>
      let (status, reason) := startFailure fault
      complain (name ++ ": " ++ reason)
      setStatus status
    | .ok program =>
      if ["sh", "dash", "bash"].contains program then callShell fuel name args
      else if program = "env" && !args.isEmpty then callIn fuel args
      else
        match Tools.run? {
            name := program, args, environment := s.environment, directory := s.directory
            input := s.input, read := s.read } with
        | none => setStatus 1
        | some e =>
          print 1 e.output
          print 2 e.errors
          modify fun s => { s with input := e.input, status := e.status }

/-- Calls a program in an environment that is made of the present one, or of nothing,
and of assignments. -/
def callIn : Nat → List String → Run Unit
  | 0, _ => throw .lost
  | fuel + 1, args => do
    let s ← get
    let bare := args.head? = some "-i"
    let args := if bare then args.tail else args
    let pairs := args.takeWhile fun a => a.toList.contains '='
    let assigned := pairs.map fun a =>
      let (n, v) := Builtins.assignmentOf a
      (n, v.getD "")
    let start := if bare then { s with bindings := [], exported := [] } else s
    let given := assigned.foldl (fun s a => s.assign a.1 a.2) start
    modify fun _ => { given with exported := assigned.map (·.1) ++ start.exported }
    match args.drop pairs.length with
    | [] => callProgram fuel "env" []
    | n :: rest =>
      match Host.program? s.directory n with
      | .ok _ => callProgram fuel n rest
      | .error fault =>
        let reason := if fault = .noProgram then "Permission denied"
          else "No such file or directory"
        print 2 (Format.encode ("env: '" ++ n ++ "': " ++ reason ++ "\n"))
        setStatus (startFailure fault).1
    modify fun now => { now with bindings := s.bindings, exported := s.exported }

def callShell : Nat → String → List String → Run Unit
  | 0, _, _ => throw .lost
  | fuel + 1, name, args => do
    let s ← get
    let call := ShellCall.ofArgs name args
    modify call.entered
    let stop ← caught do
      if let some script ← call.script? name then
        finishing fuel (runLines "" fuel { rest := script.toList })
    modify fun now => { s with
      printed := now.printed, files := now.files, nextStream := now.nextStream, input := now.input
      status := now.status }
    if let some stop := stop then throw stop

/-- Calls a program and outlives it. -/
def callApart : Nat → String → List String → Run Unit
  | 0, _, _ => throw .lost
  | fuel + 1, name, args => do
    match ← caught (callProgram fuel name args) with
    | some (.killed signal) => Builtins.bury signal
    | some stop => throw stop
    | none => pure ()

end

/-- How deeply the functions may call each other. -/
def depth : Nat := 20000

end Interpreter
end Shell
end JobGate
