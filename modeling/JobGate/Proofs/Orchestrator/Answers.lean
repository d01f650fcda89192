/-
What calls are answered.

An `Effect` says what a call does to the records.  `Performs` says besides what it is
answered, to the last notice: a message that is not granted is told a reply, which hangs
on the message and the record of the run that it names and on nothing else (`replies`),
and every other notice is about an event that the call appended.
-/
import JobGate.Proofs.Orchestrator.Consistency

namespace JobGate
namespace Orchestrator

/-! ## Replies -/

/-- What a call for a decision on a run is told when the decision is not made. -/
def objections (policy : Policy) (d : Received) (i : Intent) (run : String) (r : RunRecord) :
    List Notice :=
  if r.status ≠ .awaitingApproval then (refuseLate d r run (.ofIntent i)).notices
  else if policy r.run d.message.sender then []
  else (refuseSender d r run (.ofIntent i)).notices

/-- The replies to a message by the record of the run that it names.  A message that has
something done is not replied to. -/
def replies (policy : Policy) (named : Option RunRecord) (d : Received) (i : Intent) :
    List Notice :=
  match i.kind, i.run, named with
  | .status, some run, none => [d.notFound run]
  | .status, some _, some r => [d.replyAbout r "status" (describe r)]
  | .approveRun, some _, none | .denyRun, some _, none => []
  | .approveRun, some run, some r | .denyRun, some run, some r => objections policy d i run r
  | .runJob, _, _ => if i.jobKey.isSome then [] else [d.guidance]
  | _, _, _ => [d.guidance]

/-- A reply lists the commands, or says that the run is not known, or tells of its state. -/
inductive IsReply (named : Option RunRecord) (d : Received) (i : Intent) : Notice → Prop
  | guidance : IsReply named d i d.guidance
  | notFound {run : String} (hrun : i.run = some run) : IsReply named d i (d.notFound run)
  | about {r : RunRecord} {purpose body : String} (hnamed : named = some r)
      (hpurpose : purpose ∈ ["status", "invalid_transition", "unauthorized"]) :
      IsReply named d i (d.replyAbout r purpose body)

def named (s : RunStore) (i : Intent) : Option RunRecord := i.run.bind s.find?

section

variable {policy : Policy} {d : Received} {i : Intent}

theorem replies_guided (r : Option RunRecord) (hkey : i.kind = .runJob → i.jobKey = none)
    (hrun : i.kind = .runJob ∨ i.kind = .unknown ∨ i.run = none) :
    replies policy r d i = [d.guidance] := by
  unfold replies
  cases hkind : i.kind with
  | unknown => rfl
  | runJob => simp only [hkey hkind, Option.isSome_none, Bool.false_eq_true, if_false]
  | approveRun | denyRun | status =>
    rw [hkind] at hrun
    have hnone : i.run = none := by simpa using hrun
    simp only [hnone]

theorem replies_decision {run : String} (approves : Bool) (r : RunRecord)
    (hkind : i.kind = if approves then .approveRun else .denyRun) (hrun : i.run = some run) :
    replies policy (some r) d i = objections policy d i run r := by
  unfold replies
  cases approves <;> simp only [hkind, hrun, Bool.false_eq_true, if_false, if_true]

theorem replies_decision_none {run : String} {approves : Bool}
    (hkind : i.kind = if approves then .approveRun else .denyRun) (hrun : i.run = some run) :
    replies policy none d i = [] := by
  unfold replies
  cases approves <;> simp only [hkind, hrun, Bool.false_eq_true, if_false, if_true]

/-- A decision that is made is not replied to. -/
theorem objections_nil {run : String} {r : RunRecord} (hwaits : r.status = .awaitingApproval)
    (hmay : policy r.run d.message.sender = true) : objections policy d i run r = [] := by
  rw [objections, if_neg (not_not_intro hwaits), if_pos hmay]

/-- A reply may tell the state of the run that is named, and its key then holds that state. -/
theorem IsReply.eq_reply {named : Option RunRecord} {n : Notice} (h : IsReply named d i n) :
    ∃ purpose ∈ Notice.replyPurposes, ∃ state body,
      (state = [] ∨ ∃ r, named = some r ∧ state = [toString r.lastSeq, r.status.name]) ∧
      n = Notice.reply d.message purpose (state ++ d.receiptScope) body := by
  cases h with
  | guidance => exact ⟨"guidance", by decide, [], _, .inl rfl, rfl⟩
  | notFound _ => exact ⟨"not_found", by decide, [], _, .inl rfl, rfl⟩
  | @about r purpose body hnamed hpurpose =>
    have hreplies : purpose ∈ Notice.replyPurposes :=
      List.mem_cons_of_mem _ (List.mem_cons_of_mem _ hpurpose)
    exact ⟨purpose, hreplies, _, body, .inr ⟨r, hnamed, rfl⟩, rfl⟩

theorem mem_objections {run : String} {r : RunRecord} {n : Notice}
    (h : n ∈ objections policy d i run r) : IsReply (some r) d i n := by
  unfold objections at h
  split at h
  · cases List.mem_singleton.1 h
    exact .about rfl (by decide)
  · split at h
    · cases h
    · cases List.mem_singleton.1 h
      exact .about rfl (by decide)

theorem mem_replies {r : Option RunRecord} {n : Notice} (h : n ∈ replies policy r d i) :
    IsReply r d i n := by
  unfold replies at h
  split at h
  next hrun =>
    cases List.mem_singleton.1 h
    exact .notFound hrun
  next =>
    cases List.mem_singleton.1 h
    exact .about rfl (by decide)
  next => cases h
  next => cases h
  next => exact mem_objections h
  next => exact mem_objections h
  next =>
    split at h
    · cases h
    · cases List.mem_singleton.1 h
      exact .guidance
  next =>
    cases List.mem_singleton.1 h
    exact .guidance

theorem length_objections_le (run : String) (r : RunRecord) :
    (objections policy d i run r).length ≤ 1 := by
  unfold objections
  split
  · exact Nat.le_refl 1
  · split
    · exact Nat.zero_le 1
    · exact Nat.le_refl 1

/-- A message is replied to once. -/
theorem length_replies_le (r : Option RunRecord) : (replies policy r d i).length ≤ 1 := by
  unfold replies
  split
  next => exact Nat.le_refl 1
  next => exact Nat.le_refl 1
  next => exact Nat.zero_le 1
  next => exact Nat.zero_le 1
  next => exact length_objections_le ..
  next => exact length_objections_le ..
  next =>
    split
    · exact Nat.zero_le 1
    · exact Nat.le_refl 1
  next => exact Nat.le_refl 1

end

/-! ## Messages -/

/-- How a message can end, with what is answered. -/
inductive Heard (o : Orchestrator) (d : Received) (i : Intent) :
    Except OrchestratorError InboundOutcome → Orchestrator → Prop
  /-- There is no identifier for the run that is asked for. -/
  | failed {e : OrchestratorError} (hkind : i.kind = .runJob) (hkey : i.jobKey.isSome = true) :
      Heard o d i (.error e) o
  | replied {outcome : InboundOutcome}
      (hnotices : outcome.notices = replies o.policy (named o.store i) d i)
      (hwhy : outcome.condition.isSome = true ∨ outcome.notices = [d.guidance] ∨
        i.kind = .status) : Heard o d i (.ok outcome) o
  | requested {jobKey : String} {id : RunId} {created requested : Instant} {e : Event}
      {r : RunRecord} {store : RunStore} (hkind : i.kind = .runJob)
      (hkey : i.jobKey = some jobKey)
      (happend :
        (RunRecord.create ((RunRequest.ofMessage d.message jobKey).named id) created).append
          .approvalRequested actor [] requested = .ok (e, r))
      (hinsert : o.store.insert? r = some store) :
      Heard o d i
        (.ok { InboundOutcome.ofIntent i with
            run := some r.run.id.text
            notices := [Creation.approvalNotice r.run e] }) { o with store }
  | denied {run : String} {r r' : RunRecord} {payload : Payload} {time : Instant} {e : Event}
      {body : String} (hkind : i.kind = .denyRun) (hrun : i.run = some run)
      (hfind : o.store.find? run = some r) (hwaits : r.status = .awaitingApproval)
      (hmay : o.policy r.run d.message.sender = true)
      (happend : r.append .denied d.message.sender payload time = .ok (e, r')) :
      Heard o d i
        (.ok { InboundOutcome.ofIntent i with
            notices := [Notice.ofEventIn r'.run e "denied" d.message.channel
              d.message.conversation body] }) (o.put r')
  | approved {run : String} {r r' r'' : RunRecord} {payload payload' : Payload}
      {time time' : Instant} {e e' : Event} {body : String} (hkind : i.kind = .approveRun)
      (hrun : i.run = some run) (hfind : o.store.find? run = some r)
      (hwaits : r.status = .awaitingApproval) (hmay : o.policy r.run d.message.sender = true)
      (happend : r.append .approved d.message.sender payload time = .ok (e, r'))
      (hdispatch : r'.append .dispatched actor payload' time' = .ok (e', r'')) :
      Heard o d i
        (.ok { InboundOutcome.ofIntent i with
            notices := [Notice.ofEventIn r''.run e' "approved" d.message.channel
              d.message.conversation body]
            dispatch := some ⟨r''.run.id, r''.run.jobKey⟩
            dispatched := true }) (o.put r'')

section

variable {o : Orchestrator} {d : Received} {i : Intent}

theorem request_heard (clock : Readings) (draws : Draws) {m : Inbound} {jobKey : String}
    {receipt : Nat} (hkind : i.kind = .runJob) (hkey : i.jobKey = some jobKey) :
    o.Heard ⟨m, receipt⟩ i (o.request clock draws m jobKey (.ofIntent i)).1
      (o.request clock draws m jobKey (.ofIntent i)).2.1 := by
  have hended := Creation.complete_ended (q := RunRequest.ofMessage m jobKey) clock o.store draws
  unfold request
  generalize Creation.complete (RunRequest.ofMessage m jobKey) clock o.store draws = answer
    at hended ⊢
  obtain ⟨result, store, draws'⟩ := answer
  cases hended with
  | failed e => exact .failed hkind (by rw [hkey]; rfl)
  | created happend hinsert => exact .requested (d := ⟨m, receipt⟩) hkind hkey happend hinsert

theorem Decides.heard {run : String} {approves : Bool}
    {answer : Except OrchestratorError InboundOutcome × Orchestrator}
    (h : o.Decides d run (.ofIntent i) approves answer)
    (hkind : i.kind = if approves then .approveRun else .denyRun) (hrun : i.run = some run) :
    o.Heard d i answer.1 answer.2 := by
  have hnamed : named o.store i = o.store.find? run := by rw [named, hrun, Option.bind_some]
  cases h with
  | unknown hfind =>
    refine .replied ?_ (.inl rfl)
    rw [hnamed, hfind, replies_decision_none hkind hrun]
    rfl
  | late hfind hlate =>
    refine .replied ?_ (.inl rfl)
    rw [hnamed, hfind, replies_decision _ _ hkind hrun, objections, if_pos hlate]
  | refused hfind hwaits hmay =>
    refine .replied ?_ (.inl rfl)
    rw [hnamed, hfind, replies_decision _ _ hkind hrun, objections, if_neg (not_not_intro hwaits),
      hmay]
    rfl
  | denied hfind hwaits hmay happend => exact .denied hkind hrun hfind hwaits hmay happend
  | approved hfind hwaits hmay happend hdispatch =>
    exact .approved hkind hrun hfind hwaits hmay happend hdispatch

theorem answerStatus_heard (hs : o.store.Regular) {run : String} (hkind : i.kind = .status)
    (hrun : i.run = some run) : o.Heard d i (o.answerStatus d run (.ofIntent i)) o := by
  have hnamed : named o.store i = o.store.find? run := by rw [named, hrun, Option.bind_some]
  unfold answerStatus
  cases hfind : o.store.find? run with
  | none =>
    refine .replied ?_ (.inl rfl)
    unfold replies
    simp only [hnamed, hfind, hkind, hrun]
  | some r =>
    simp only [(hs hfind).faithful.verify]
    refine .replied ?_ (.inr (.inr hkind))
    unfold replies
    simp only [hnamed, hfind, hkind, hrun]

/-- A message is heard after it has used up a receipt number. -/
theorem handle_heard (hs : o.store.Regular) (clock : Readings) (draws : Draws) (m : Inbound)
    (i : Intent) :
    Heard { o with receipts := o.receipts + 1 } ⟨m, o.receipts + 1⟩ i
      (o.handle clock draws m i).1 (o.handle clock draws m i).2.1 := by
  have htakes := handle_takes o clock draws m i
  generalize o.handle clock draws m i = answer at htakes ⊢
  cases htakes with
  | requests hkind hkey => exact request_heard clock draws hkind hkey
  | decides hkind hrun => exact (decide_decides _ clock _ _ _ _).heard hkind hrun
  | asks hkind hrun =>
    exact answerStatus_heard (o := { o with receipts := o.receipts + 1 }) hs hkind hrun
  | guided hkey hrun => exact .replied (replies_guided _ hkey hrun).symm (.inr (.inl rfl))

end

namespace Heard

variable {o o' : Orchestrator} {d : Received} {i : Intent}
  {result : Except OrchestratorError InboundOutcome}

theorem policy (h : o.Heard d i result o') : o'.policy = o.policy := by
  cases h <;> rfl

theorem receipts (h : o.Heard d i result o') : o'.receipts = o.receipts := by
  cases h <;> rfl

/-- A message that has something done is not replied to. -/
theorem replies_eq (h : o.Heard d i result o') :
    (∃ outcome, result = .ok outcome ∧
      outcome.notices = replies o.policy (named o.store i) d i) ∨
      replies o.policy (named o.store i) d i = [] := by
  cases h with
  | failed hkind hkey =>
    refine .inr ?_
    unfold replies
    simp only [hkind, hkey, if_true]
  | replied hnotices _ => exact .inl ⟨_, rfl, hnotices⟩
  | requested hkind hkey _ _ =>
    refine .inr ?_
    unfold replies
    simp only [hkind, hkey, Option.isSome_some, if_true]
  | denied hkind hrun hfind hwaits hmay _ =>
    refine .inr ?_
    rw [named, hrun, Option.bind_some, hfind,
      replies_decision false _ hkind hrun, objections_nil hwaits hmay]
  | approved hkind hrun hfind hwaits hmay _ _ =>
    refine .inr ?_
    rw [named, hrun, Option.bind_some, hfind,
      replies_decision true _ hkind hrun, objections_nil hwaits hmay]

end Heard

/-! ## Calls -/

def Answer.notices : Answer → List Notice
  | .inbound (.ok outcome) => outcome.notices
  | .execution (.ok outcome) => outcome.notices
  | .executions (.ok outcomes) => outcomes.flatMap (·.notices)
  | .inbound (.error _) | .execution (.error _) | .executions (.error _) => []

structure Report where
  run : String
  kind : EventKind
  actor : String

def Call.report? : Call → Option Report
  | .onStarted _ run worker => some ⟨run, .started, worker⟩
  | .onCompleted _ run worker success _ => some ⟨run, endKind success, worker⟩
  | .onTimeout _ run _ => some ⟨run, .timedOut, Orchestrator.actor⟩
  | .cancelRun _ run actor _ => some ⟨run, .canceled, actor⟩
  | .handle .. | .timeOutStale .. => none

inductive Performs (o : Orchestrator) : Call → Answer → Orchestrator → Prop
  | heard {clock : Readings} {draws : Draws} {m : Inbound} {i : Intent}
      {result : Except OrchestratorError InboundOutcome} {o' : Orchestrator}
      (h : Heard { o with receipts := o.receipts + 1 } ⟨m, o.receipts + 1⟩ i result o') :
      Performs o (.handle clock draws m i) (.inbound result) o'
  | reported {c : Call} {report : Report} {outcome : ExecutionOutcome} {o' : Orchestrator}
      (hreport : c.report? = some report)
      (h : o.Reported report.run report.kind report.actor outcome o') :
      Performs o c (.execution (.ok outcome)) o'
  | swept {clock : Readings} {maxAge : Nat} {now : Instant} {outcomes : List ExecutionOutcome}
      {o' : Orchestrator} (h : o.Sweeps outcomes o') :
      Performs o (.timeOutStale clock maxAge now) (.executions (.ok outcomes)) o'

theorem perform_performs {o : Orchestrator} (hs : o.store.Regular) (c : Call) :
    o.Performs c (o.perform c).1 (o.perform c).2 := by
  cases c with
  | handle clock draws m i => exact .heard (handle_heard hs clock draws m i)
  | onStarted clock run worker =>
    obtain ⟨outcome, o', heq, h⟩ := o.onStarted_reported clock run worker
    simp only [perform, heq]
    have hreport : (Call.onStarted clock run worker).report? = some ⟨run, .started, worker⟩ := rfl
    exact .reported hreport h
  | onCompleted clock run worker success summary =>
    obtain ⟨outcome, o', heq, h⟩ := o.onCompleted_reported clock run worker success summary
    simp only [perform, heq]
    have hreport : (Call.onCompleted clock run worker success summary).report? =
        some ⟨run, endKind success, worker⟩ := rfl
    exact .reported hreport h
  | onTimeout clock run reason =>
    obtain ⟨outcome, o', heq, h⟩ := o.terminate_reported clock run .timeout reason
    simp only [perform, onTimeout, heq]
    have hreport : (Call.onTimeout clock run reason).report? = some ⟨run, .timedOut, actor⟩ := rfl
    exact .reported hreport h
  | cancelRun clock run actor reason =>
    obtain ⟨outcome, o', heq, h⟩ := o.terminate_reported clock run (.cancel actor) reason
    simp only [perform, cancelRun, heq]
    have hreport : (Call.cancelRun clock run actor reason).report? = some ⟨run, .canceled, actor⟩ :=
      rfl
    exact .reported hreport h
  | timeOutStale clock maxAge now =>
    obtain ⟨outcomes, o', heq, h⟩ := o.timeOutStale_sweeps clock maxAge now
    simp only [perform, heq]
    exact .swept h

end Orchestrator
end JobGate
