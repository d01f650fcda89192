/-
What a path offers to a table that is kept in a file.
-/
import JobGate.Host.Tree
import JobGate.Queue.Storage

namespace JobGate
namespace Host

/-- The directory around a path; the empty path and the root have none. -/
def parent? (path : String) : Option String :=
  let cs := (path.toList.reverse.dropWhile (· = '/'))
  if cs.isEmpty then none
  else
    let above := cs.dropWhile (· ≠ '/')
    let trimmed := above.dropWhile (· = '/')
    some (String.ofList (if trimmed.isEmpty then above.take 1 else trimmed.reverse))

/-- Whether a directory is there or can be made.  The empty path is the directory
in which jobs start. -/
def canMake (path : String) : Bool :=
  if path.isEmpty then true
  else if path.toList.contains '\x00' then false
  else
    match resolve home path with
    | (_, .found k) => k = .directory
    | (names, .missing) => !sealedDirectories.any (·.isPrefixOf names)
    | _ => false

/-- What a path offers.  Some names are not those of files: what is stored there is
gone at the next look. -/
def storage (path : String) : Storage :=
  if path.isEmpty || path = ":memory:" then .fleeting
  else if !(parent? path).all canMake then .noParent
  else if path.toList.contains '\x00' then .unopenable
  else
    match resolve home path with
    | (_, .found .directory) => .unopenable
    | (_, .found .device) => .fleeting
    | (_, .found _) => .usable
    | (names, .missing) =>
      if path.toList.getLast? = some '/' || sealedDirectories.any (·.isPrefixOf names) then
        .unopenable
      else .usable
    | _ => .unopenable

end Host
end JobGate
