/-
The numbers of events.

Events are numbered from one on, in the order in which they are written.  So the number of
the last one says how long the log was when a record was read, and as records of a run
differ only in how far its log has come, it says which record it was (`Later.unique`).
-/
import JobGate.Proofs.Run.Later

namespace JobGate
namespace RunRecord

def Numbered (r : RunRecord) : Prop :=
  r.events.map (·.seq) = List.range' 1 r.events.length

variable {r r' x x' : RunRecord} {kind : EventKind} {actor : String} {payload : Payload}
  {time : Instant} {e : Event} {kinds kinds' : EventKind → Prop}

theorem nextEvent_seq (r : RunRecord) (kind : EventKind) (actor : String) (payload : Payload)
    (time : Instant) : (r.nextEvent kind actor payload time).seq = r.lastSeq + 1 := by
  unfold nextEvent lastSeq
  cases r.events.getLast? <;> rfl

namespace Numbered

theorem create (new : NewRun) (time : Instant) : (RunRecord.create new time).Numbered := rfl

theorem lastSeq (h : r.Numbered) : r.lastSeq = r.events.length := by
  unfold RunRecord.lastSeq
  rcases List.eq_nil_or_concat r.events with hnil | ⟨events, last, hevents⟩
  · rw [hnil]
    rfl
  · rw [Numbered, hevents, List.concat_eq_append, List.map_append, List.length_append,
      List.length_singleton, List.range'_1_concat] at h
    have hlast : last.seq = 1 + events.length := (List.cons.inj (List.append_inj' h rfl).2).1
    rw [hevents, List.concat_eq_append, List.getLast?_concat, List.length_append,
      List.length_singleton]
    exact hlast.trans (Nat.add_comm ..)

theorem append (hr : r.Numbered) (h : r.append kind actor payload time = .ok (e, r')) :
    r'.Numbered := by
  obtain ⟨next, -, rfl, rfl⟩ := append_eq_ok_iff.1 h
  rw [Numbered, List.map_append, List.map_singleton, nextEvent_seq, hr, hr.lastSeq,
    List.length_append, List.length_singleton, List.range'_1_concat, Nat.add_comm 1]

theorem nodup (h : r.Numbered) : (r.events.map (·.seq)).Nodup := by
  rw [h]
  exact List.nodup_range'

end Numbered

/-- Two records that the same one comes from are the same when their logs are equally
long. -/
theorem Later.unique (h : Later kinds x r) (h' : Later kinds' x' r) (hx : x.Faithful)
    (hx' : x'.Faithful) (hlength : x.events.length = x'.events.length) : x = x' := by
  obtain ⟨new, hnew, -⟩ := h.events
  obtain ⟨new', hnew', -⟩ := h'.events
  have hevents : x.events = x'.events := (List.append_inj (hnew.symm.trans hnew') hlength).1
  have hstatus : x.run.status = x'.run.status :=
    Except.ok.inj (hx.symm.trans ((congrArg replay hevents).trans hx'))
  have hrun : x.run = x'.run :=
    calc x.run = { r.run with status := x.run.status } := by rw [h.run]
      _ = { r.run with status := x'.run.status } := by rw [hstatus]
      _ = x'.run := by rw [h'.run]
  cases x
  cases x'
  cases hrun
  cases hevents
  rfl

end RunRecord
end JobGate
