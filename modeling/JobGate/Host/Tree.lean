/-
The files that jobs can reach on the host, one platform among others.

The host has a fixed tree of directories, some files and devices, and the programs
of `programs`.  A path is followed step by step, so it makes a difference whether
something on the way is missing or is no directory.
-/

namespace JobGate
namespace Host

/-- What stands at a path. -/
inductive FileKind
  | directory
  | file
  | device
  | program
deriving DecidableEq, Repr

/-- What following a path leads to. -/
inductive Lookup
  | found (kind : FileKind)
  | missing
  /-- Something on the way is no directory. -/
  | noDirectory
  | nameTooLong
deriving DecidableEq, Repr

/-- The names of a path, from the root on. -/
abbrev Names := List String

def programs : List String :=
  ["[", "basename", "bash", "cat", "dash", "dirname", "echo", "env", "false", "head", "kill",
    "printenv", "printf", "pwd", "seq", "sh", "sleep", "sort", "tail", "tee", "test", "tr",
    "true", "wc", "yes"]

def programDirectories : List Names := [["usr", "bin"], ["bin"]]

/-- The directory in which jobs start when none is named. -/
def home : Names := ["srv", "desk"]

/-- The directories, programs aside. -/
def directories : List Names :=
  [[], ["bin"], ["boot"], ["dev"], ["dev", "shm"], ["etc"], ["home"], ["lib"], ["media"], ["mnt"],
    ["opt"], ["proc"], ["root"], ["run"], ["sbin"], ["srv"], home, ["sys"], ["tmp"], ["usr"],
    ["usr", "bin"], ["usr", "lib"], ["usr", "local"], ["usr", "local", "bin"],
    ["usr", "local", "sbin"], ["usr", "sbin"], ["usr", "share"], ["var"], ["var", "lib"],
    ["var", "log"], ["var", "tmp"]]

/-- The directories in which nothing can be made. -/
def sealedDirectories : List Names := [["proc"], ["sys"]]

def devices : List Names :=
  [["dev", "full"], ["dev", "null"], ["dev", "random"], ["dev", "stderr"], ["dev", "stdin"],
    ["dev", "stdout"], ["dev", "tty"], ["dev", "urandom"], ["dev", "zero"]]

def files : List Names :=
  [["etc", "group"], ["etc", "hostname"], ["etc", "hosts"], ["etc", "os-release"],
    ["etc", "passwd"], ["etc", "resolv.conf"]]

def kind? (names : Names) : Option FileKind :=
  if directories.contains names then some .directory
  else if devices.contains names then some .device
  else if files.contains names then some .file
  else if programDirectories.any fun d => programs.any fun p => names = d ++ [p] then some .program
  else none

/-- The longest name that a file can have, in bytes. -/
def longestName : Nat := 255

def follow (reached : Names) : Names → Names × Lookup
  | [] =>
    (reached, match kind? reached with
      | some k => .found k
      | none => .missing)
  | name :: rest =>
    match kind? reached with
    | some .directory =>
      if name = "." || name.isEmpty then follow reached rest
      else if name = ".." then follow reached.dropLast rest
      else if longestName < name.utf8ByteSize then (reached ++ [name], .nameTooLong)
      else follow (reached ++ [name]) rest
    | some _ => (reached ++ name :: rest, .noDirectory)
    | none => (reached ++ name :: rest, .missing)

/-- Follows a path from a directory on: the names it leads to, and what is there.
The empty path leads nowhere, and a path that ends in a stroke leads to a
directory. -/
def resolve (directory : Names) (path : String) : Names × Lookup :=
  let parts := path.splitOn "/"
  match parts with
  | [""] => (directory, .missing)
  | "" :: rest => follow [] rest
  | parts => follow directory parts

/-- What following a path from a directory on leads to. -/
def lookup (directory : Names) (path : String) : Lookup := (resolve directory path).2

/-- Why a program cannot be started. -/
inductive StartFault
  | notFound
  | noProgram
  | noDirectory
  | nameTooLong
deriving DecidableEq, Repr

def StartFault.message : StartFault → String
  | notFound => "No such file or directory (os error 2)"
  | noProgram => "Permission denied (os error 13)"
  | noDirectory => "Not a directory (os error 20)"
  | nameTooLong => "File name too long (os error 36)"

def directory? (path : String) : Except StartFault Names :=
  match resolve home path with
  | (names, .found .directory) => .ok names
  | (_, .found _) | (_, .noDirectory) => .error .noDirectory
  | (_, .missing) => .error .notFound
  | (_, .nameTooLong) => .error .nameTooLong

/-- The program that a name or a path stands for.  A name without a stroke is
looked up among the programs. -/
def program? (directory : Names) (name : String) : Except StartFault String :=
  if name.toList.contains '/' then
    match resolve directory name with
    | (names, .found .program) => .ok (names.getLastD "")
    | (_, .found _) => .error .noProgram
    | (_, .noDirectory) => .error .noDirectory
    | (_, .missing) => .error .notFound
    | (_, .nameTooLong) => .error .nameTooLong
  else if programs.contains name then .ok name
  else if name = "." || name = ".." then .error .noProgram
  else if longestName < name.utf8ByteSize then .error .nameTooLong
  else .error .notFound

def pathOf (names : Names) : String := "/" ++ "/".intercalate names

end Host
end JobGate
