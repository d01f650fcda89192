/-
Who may decide on a run.
-/
import JobGate.Run.Record

namespace JobGate

/-- Whether a sender may approve or deny a run. -/
abbrev Policy := Run → String → Bool

namespace Policy

/-- Only the requester decides. -/
def requesterOnly : Policy := fun run sender => run.requestedBy == sender

/-- The listed approvers decide, and the requester too when that is allowed. -/
def approverList (allowRequester : Bool) (approvers : List String) : Policy :=
  fun run sender => (allowRequester && run.requestedBy == sender) || approvers.contains sender

/-- Every sender whose address ends in some text decides. -/
def senderEndsWith (ending : String) : Policy :=
  fun _ sender => ending.toList.isSuffixOf sender.toList

end Policy
end JobGate
