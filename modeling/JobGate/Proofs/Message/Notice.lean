/-
Which notices are about an event of a run.

The first part of a key says what a notice is for.  A kind of event that somebody is told
of has a purpose of its own, and no reply has any of these, so the key alone tells whether
a notice is about an event, and about one of which kind.
-/
import JobGate.Message.Outbound

namespace JobGate

namespace EventKind

/-- What a notice about such an event is for.  Nobody is told of the other kinds. -/
def purpose? : EventKind → Option String
  | approvalRequested => some "approval"
  | dispatched => some "approved"
  | denied => some "denied"
  | succeeded => some "succeeded"
  | failed => some "failed"
  | timedOut => some "timed_out"
  | canceled => some "canceled"
  | created | approved | started => none

def isTold (k : EventKind) : Bool := k.purpose?.isSome

def isEnd : EventKind → Bool
  | denied | succeeded | failed | timedOut | canceled => true
  | created | approvalRequested | approved | dispatched | started => false

theorem isTold_of_isEnd {k : EventKind} (h : k.isEnd = true) : k.isTold = true := by
  cases k <;> first | rfl | cases h

end EventKind

namespace Notice

/-- The kind of event that a notice is about, and `none` for a reply. -/
def kind? (n : Notice) : Option EventKind :=
  EventKind.all.find? fun k => k.isTold && k.purpose? == n.key.parts.head?

def isAboutEvent (n : Notice) : Bool := n.kind?.isSome

def isFinal (n : Notice) : Bool := n.kind?.any (·.isEnd)

def replyPurposes : List String :=
  ["guidance", "not_found", "status", "invalid_transition", "unauthorized"]

variable {n : Notice} {k : EventKind} {purpose : String}

theorem kind?_of_purpose (hk : k.purpose? = some purpose)
    (hn : n.key.parts.head? = some purpose) : n.kind? = some k := by
  unfold kind?
  rw [hn]
  cases k <;> cases hk <;> rfl

theorem kind?_of_reply (hp : purpose ∈ replyPurposes)
    (hn : n.key.parts.head? = some purpose) : n.kind? = none := by
  unfold kind?
  rw [hn]
  simp only [replyPurposes, List.mem_cons, List.not_mem_nil, or_false] at hp
  rcases hp with rfl | rfl | rfl | rfl | rfl <;> rfl

theorem kind?_ofEventIn (hk : k.purpose? = some purpose) (run : Run) (event : Event)
    (channel conversation body : String) :
    (ofEventIn run event purpose channel conversation body).kind? = some k :=
  kind?_of_purpose hk rfl

theorem kind?_reply (hp : purpose ∈ replyPurposes) (m : Inbound) (scope : List String)
    (body : String) : (reply m purpose scope body).kind? = none :=
  kind?_of_reply hp rfl

/-- The notices about an event: one, when somebody is told of events of its kind. -/
def ofKind (kind : EventKind) (run : Run) (event : Event) (body : String) : List Notice :=
  (kind.purpose?.map fun purpose => ofEvent run event purpose body).toList

end Notice
end JobGate
