/-
The queue that settings ask for.

Whether a queue that is kept as a table can be opened depends on its path, and
that is told by a `Storage`.
-/
import JobGate.Queue.Backend
import JobGate.Settings.Basic

namespace JobGate

/-- What a path offers to a table. -/
inductive Storage
  | usable
  /-- Every look at the path finds an empty storage of its own, so that no table
  is ever found. -/
  | fleeting
  | unopenable
  /-- The directory around the path cannot be made. -/
  | noParent
deriving DecidableEq, Repr

namespace Backend

def open? (q : QueueSettings) (storage : String → Storage) : Except QueueError Backend :=
  match q.backend, q.path with
  | .memory, _ => .ok (memory (.new q.capacity))
  | .table, none => .error (.misconfigured BackendKind.table.name "`sqlite_path` is not set")
  | .table, some path =>
    match storage path with
    | .usable => .ok (table (.new q.capacity))
    | .fleeting => .ok (table (TableQueue.new q.capacity).drop)
    | .unopenable => .error (.unopened path)
    | .noParent => .error (.noParent path)

end Backend
end JobGate
