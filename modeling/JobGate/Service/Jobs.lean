/-
The jobs of a desk, executed on the host.
-/
import JobGate.Host.Programs

namespace JobGate
namespace Jobs

/-- Executes the job of a dispatch, for a worker that was asked to stop beforehand or
is not asked at all.  The host says at the second look how a program has ended. -/
def execute (jobs : List (String × Job)) (d : Dispatch) (stopped : Bool) : Report :=
  (executed? Host.platform jobs d (fun _ => stopped) 2).getD canceled

end Jobs
end JobGate
