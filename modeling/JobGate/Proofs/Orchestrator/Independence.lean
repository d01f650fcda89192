/-
Calls about different runs.

A call about one run looks up the record of that run and puts another in its place
(`Revises`).  All that it reads besides is who may decide, which no call changes, and the
number of messages taken, which shows in the reply to a message only when its provider has
not named it.  So what is called for one run is answered, and leaves the record of that run,
as if nothing had been called for any other (`Agree.naming`), and calls about two runs may
come in any order.
-/
import JobGate.Proofs.Orchestrator.Replies

namespace JobGate

/-- Stores with the same runs in the same order, and the same record of each, are the same. -/
theorem RunStore.eq_of_find? {s t : RunStore}
    (hids : s.records.map (·.run.id) = t.records.map (·.run.id))
    (hfind : ∀ run, s.find? run = t.find? run) : s = t := by
  have hrecords : ∀ s : RunStore,
      (s.records.map (·.run.id)).filterMap (fun id => s.find? id.text) = s.records := by
    intro s
    rw [List.filterMap_map]
    exact (List.filterMap_congr fun r hr => find?_of_mem hr).trans List.filterMap_some
  have hsame : s.records = t.records := by
    rw [← hrecords s, ← hrecords t, hids]
    exact List.filterMap_congr fun id _ => hfind id.text
  cases s
  cases t
  cases hsame
  rfl

namespace Orchestrator

/-! ## The record of one run -/

def revise {α : Type} (o : Orchestrator) (run : String) (unknown : α)
    (known : RunRecord → α × RunRecord) : α × Orchestrator :=
  match o.store.find? run with
  | none => (unknown, o)
  | some r => ((known r).1, o.put (known r).2)

/-- An operation looks up the record of a run and puts another record of that run in its
place.  Besides that it depends on who may decide. -/
def Revises {α : Type} (run : String) (op : Orchestrator → α × Orchestrator) : Prop :=
  ∀ policy, ∃ (unknown : α) (known : RunRecord → α × RunRecord),
    (∀ r, (known r).2.run.id = r.run.id) ∧
      ∀ o, o.policy = policy → op o = o.revise run unknown known

section

variable {o : Orchestrator} {run : String}

theorem revise_none {α : Type} (h : o.store.find? run = none) (unknown : α)
    (known : RunRecord → α × RunRecord) : o.revise run unknown known = (unknown, o) := by
  rw [revise, h]

theorem revise_some {α : Type} {r : RunRecord} (h : o.store.find? run = some r) (unknown : α)
    (known : RunRecord → α × RunRecord) :
    o.revise run unknown known = ((known r).1, o.put (known r).2) := by
  rw [revise, h]

/-- An operation that leaves the record as it is. -/
theorem revise_kept {α : Type} {r : RunRecord} {a : α} (h : o.store.find? run = some r)
    (unknown : α) {known : RunRecord → α × RunRecord} (hknown : known r = (a, r)) :
    o.revise run unknown known = (a, o) := by
  rw [revise_some h, hknown, put_self o run h]

theorem Revises.map {α β : Type} {op : Orchestrator → α × Orchestrator} (h : Revises run op)
    (f : α → β) : Revises run fun o => (f (op o).1, (op o).2) := by
  intro policy
  obtain ⟨unknown, known, hid, heq⟩ := h policy
  refine ⟨f unknown, fun r => (f (known r).1, (known r).2), hid, fun o ho => ?_⟩
  show (f (op o).1, (op o).2) = _
  rw [heq o ho]
  cases hfind : o.store.find? run with
  | none => rw [revise_none hfind, revise_none hfind]
  | some r => rw [revise_some hfind, revise_some hfind]

theorem appendChecked_id {r r' : RunRecord} {kind : EventKind} {actor : String}
    {payload : Payload} {time : Instant} {e : Event}
    (h : appendChecked r kind actor payload time = .ok (e, r')) : r'.run.id = r.run.id := by
  unfold appendChecked at h
  cases happend : r.append kind actor payload time with
  | error rejection => rw [happend] at h; cases h
  | ok result =>
    rw [happend] at h
    cases h
    exact RunRecord.append_id happend

/-! ## Reports -/

theorem start_id (r : RunRecord) (clock : Readings) (run worker : String) :
    (start r clock run worker).2.run.id = r.run.id := by
  unfold start
  split
  next => rfl
  next h => exact appendChecked_id h

theorem onStarted_revises (clock : Readings) (run worker : String) :
    Revises run (·.onStarted clock run worker) := by
  intro policy
  refine ⟨.ok (.notFound run), fun r =>
    if r.status = .dispatching then start r clock run worker
    else if r.status = .running || r.status.isTerminal then
      (.ok (.unchanged run r.status .duplicate), r)
    else (.ok (.unchanged run r.status .invalidTransition), r), fun r => ?_, fun o _ => ?_⟩
  · dsimp only
    split
    · exact start_id ..
    · split <;> rfl
  · show o.onStarted clock run worker = _
    unfold onStarted
    cases hfind : o.store.find? run with
    | none => rw [revise_none hfind]
    | some r =>
      by_cases hd : r.status = .dispatching
      · simp only [revise_some hfind, if_pos hd]
      · by_cases hover : (r.status = .running || r.status.isTerminal) = true
        · simp only [if_neg hd, if_pos hover]
          exact (revise_kept hfind _ (by rw [if_neg hd, if_pos hover])).symm
        · simp only [if_neg hd, if_neg hover]
          exact (revise_kept hfind _ (by rw [if_neg hd, if_neg hover])).symm

theorem finish_id (r : RunRecord) (clock : Readings) (run worker : String) (success : Bool)
    (summary : String) : (finish r clock run worker success summary).2.run.id = r.run.id := by
  unfold finish
  dsimp only
  split
  next => rfl
  next h => exact appendChecked_id h

theorem onCompleted_revises (clock : Readings) (run worker : String) (success : Bool)
    (summary : String) : Revises run (·.onCompleted clock run worker success summary) := by
  intro policy
  refine ⟨.ok (.notFound run), fun r =>
    if r.status.isTerminal then (.ok (.unchanged run r.status .duplicate), r)
    else if r.status ≠ .running then (.ok (.unchanged run r.status .invalidTransition), r)
    else finish r clock run worker success summary, fun r => ?_, fun o _ => ?_⟩
  · dsimp only
    split
    · rfl
    · split
      · rfl
      · exact finish_id ..
  · show o.onCompleted clock run worker success summary = _
    unfold onCompleted
    cases hfind : o.store.find? run with
    | none => rw [revise_none hfind]
    | some r =>
      by_cases hover : r.status.isTerminal = true
      · simp only [if_pos hover]
        exact (revise_kept hfind _ (by rw [if_pos hover])).symm
      · by_cases hr : r.status ≠ .running
        · simp only [if_neg hover, if_pos hr]
          exact (revise_kept hfind _ (by rw [if_neg hover, if_pos hr])).symm
        · simp only [revise_some hfind, if_neg hover, if_neg hr]

theorem terminateRecord_id (r : RunRecord) (t : Termination) (reason : String) (time : Instant) :
    (terminateRecord r t reason time).2.run.id = r.run.id := by
  unfold terminateRecord
  dsimp only
  split
  · rfl
  · split
    next => rfl
    next h => exact appendChecked_id h

theorem terminate_revises (clock : Readings) (run : String) (t : Termination) (reason : String) :
    Revises run (·.terminate clock run t reason) :=
  fun _ => ⟨.ok (.notFound run), fun r => terminateRecord r t reason (clock 0),
    fun r => terminateRecord_id r t reason (clock 0), fun _ _ => rfl⟩

/-! ## Messages -/

/-- The receipt number of a message that its provider has named shows in no reply. -/
theorem replyAbout_receipt {m : Inbound} (hid : m.providerId.isSome = true) (receipt : Nat)
    (r : RunRecord) (purpose body : String) :
    Received.replyAbout ⟨m, receipt⟩ r purpose body =
      Received.replyAbout ⟨m, 0⟩ r purpose body := by
  obtain ⟨id, hid⟩ := Option.isSome_iff_exists.1 hid
  unfold Received.replyAbout
  rw [receiptScope_of_some hid, receiptScope_of_some hid]

theorem notFound_receipt {m : Inbound} (hid : m.providerId.isSome = true) (receipt : Nat)
    (run : String) : Received.notFound ⟨m, receipt⟩ run = Received.notFound ⟨m, 0⟩ run := by
  obtain ⟨id, hid⟩ := Option.isSome_iff_exists.1 hid
  unfold Received.notFound Received.reply
  rw [receiptScope_of_some hid, receiptScope_of_some hid]

theorem deny_id (m : Inbound) (clock : Readings) (r : RunRecord) (run : String)
    (outcome : InboundOutcome) : (deny m clock r run outcome).2.run.id = r.run.id := by
  unfold deny
  split
  next => rfl
  next h => exact appendChecked_id h

theorem approve_id (m : Inbound) (clock : Readings) (r : RunRecord) (run : String)
    (outcome : InboundOutcome) : (approve m clock r run outcome).2.run.id = r.run.id := by
  unfold approve
  split
  next => rfl
  next h =>
    dsimp only
    split
    next => exact appendChecked_id h
    next h' => exact (appendChecked_id h').trans (appendChecked_id h)

theorem decide_revises {m : Inbound} (hid : m.providerId.isSome = true) (clock : Readings)
    (run : String) (approves : Bool) (outcome : InboundOutcome) :
    Revises run fun o => o.decide clock ⟨m, o.receipts⟩ run approves outcome := by
  intro policy
  refine ⟨.ok { outcome with condition := some (.notFound run) }, fun r =>
    if r.status ≠ .awaitingApproval then (.ok (refuseLate ⟨m, 0⟩ r run outcome), r)
    else if !policy r.run m.sender then (.ok (refuseSender ⟨m, 0⟩ r run outcome), r)
    else if approves then approve m clock r run outcome
    else deny m clock r run outcome, fun r => ?_, fun o ho => ?_⟩
  · dsimp only
    split
    · rfl
    · split
      · rfl
      · split
        · exact approve_id ..
        · exact deny_id ..
  · subst ho
    show o.decide clock ⟨m, o.receipts⟩ run approves outcome = _
    unfold decide
    cases hfind : o.store.find? run with
    | none => rw [revise_none hfind]
    | some r =>
      by_cases hlate : r.status ≠ .awaitingApproval
      · simp only [if_pos hlate]
        have hrefuse :
            refuseLate ⟨m, o.receipts⟩ r run outcome = refuseLate ⟨m, 0⟩ r run outcome := by
          unfold refuseLate
          rw [replyAbout_receipt hid]
        exact (revise_kept hfind _ (by rw [if_pos hlate, hrefuse])).symm
      · by_cases hmay : (!o.policy r.run m.sender) = true
        · simp only [if_neg hlate, if_pos hmay]
          have hrefuse : refuseSender ⟨m, o.receipts⟩ r run outcome =
              refuseSender ⟨m, 0⟩ r run outcome := by
            unfold refuseSender
            rw [replyAbout_receipt hid]
          exact (revise_kept hfind _ (by rw [if_neg hlate, if_pos hmay, hrefuse])).symm
        · simp only [revise_some hfind, if_neg hlate, if_neg hmay]

theorem answerStatus_revises {m : Inbound} (hid : m.providerId.isSome = true) (run : String)
    (outcome : InboundOutcome) :
    Revises run fun o => (o.answerStatus ⟨m, o.receipts⟩ run outcome, o) := by
  intro policy
  refine ⟨.ok { outcome with
      notices := [Received.notFound ⟨m, 0⟩ run], condition := some (.notFound run) }, fun r =>
    ((r.verify.mapError (.corrupt r.run.id.text)).map fun _ => { outcome with
      notices := [Received.replyAbout ⟨m, 0⟩ r "status" (describe r)] }, r),
    fun _ => rfl, fun o _ => ?_⟩
  show (o.answerStatus ⟨m, o.receipts⟩ run outcome, o) = _
  unfold answerStatus
  cases hfind : o.store.find? run with
  | none => rw [revise_none hfind, notFound_receipt hid]
  | some r =>
    refine Eq.trans ?_ (revise_kept hfind _ (by rfl)).symm
    have hreply := replyAbout_receipt hid o.receipts r "status" (describe r)
    cases hverify : r.verify with
    | error fault => simp only [hverify, Except.mapError, Except.map]
    | ok => simp only [hverify, hreply, Except.mapError, Except.map]

end

/-! ## Calls -/

/-- A call is about one run: a decision on it or a question about it, in a message that its
provider has named, or a report. -/
inductive Call.IsAbout (run : String) : Call → Prop
  | message {clock : Readings} {draws : Draws} {m : Inbound} {i : Intent}
      (hkind : i.kind = .approveRun ∨ i.kind = .denyRun ∨ i.kind = .status)
      (hrun : i.run = some run) (hid : m.providerId.isSome = true) :
      IsAbout run (.handle clock draws m i)
  | onStarted (clock : Readings) (worker : String) : IsAbout run (.onStarted clock run worker)
  | onCompleted (clock : Readings) (worker : String) (success : Bool) (summary : String) :
      IsAbout run (.onCompleted clock run worker success summary)
  | onTimeout (clock : Readings) (reason : String) : IsAbout run (.onTimeout clock run reason)
  | cancelRun (clock : Readings) (actor reason : String) :
      IsAbout run (.cancelRun clock run actor reason)

namespace Call.IsAbout

variable {run : String} {c : Call}

theorem run? (h : c.IsAbout run) : c.run? = some run := by
  cases h with
  | message hkind hrun _ =>
    have hdecides : ∀ {i : Intent}, (i.kind = .approveRun ∨ i.kind = .denyRun ∨ i.kind = .status) →
        i.kind ≠ .runJob := by
      rintro i (h | h | h) <;> rw [h] <;> decide
    exact (if_neg (hdecides hkind)).trans hrun
  | _ => rfl

/-- A call about a run takes a receipt number, if it is a message, and revises the record. -/
theorem revises (h : c.IsAbout run) : ∃ op, Revises run op ∧
    ∀ o : Orchestrator, o.perform c = op { o with receipts := o.receipts + taken [c] } := by
  cases h with
  | @message clock draws m i hkind hrun hid =>
    rcases hkind with hkind | hkind | hkind
    · refine ⟨_, (decide_revises hid clock run true (.ofIntent i)).map .inbound, fun o => ?_⟩
      simp only [perform, Orchestrator.handle, hkind, hrun]
      rfl
    · refine ⟨_, (decide_revises hid clock run false (.ofIntent i)).map .inbound, fun o => ?_⟩
      simp only [perform, Orchestrator.handle, hkind, hrun]
      rfl
    · refine ⟨_, (answerStatus_revises hid run (.ofIntent i)).map .inbound, fun o => ?_⟩
      simp only [perform, Orchestrator.handle, hkind, hrun]
      rfl
  | onStarted clock worker =>
    exact ⟨_, (onStarted_revises clock run worker).map .execution, fun _ => rfl⟩
  | onCompleted clock worker success summary =>
    exact ⟨_, (onCompleted_revises clock run worker success summary).map .execution, fun _ => rfl⟩
  | onTimeout clock reason =>
    exact ⟨_, (terminate_revises clock run .timeout reason).map .execution, fun _ => rfl⟩
  | cancelRun clock actor reason =>
    exact ⟨_, (terminate_revises clock run (.cancel actor) reason).map .execution, fun _ => rfl⟩

theorem perform_revise (h : c.IsAbout run) (policy : Policy) :
    ∃ (unknown : Answer) (known : RunRecord → Answer × RunRecord),
      (∀ r, (known r).2.run.id = r.run.id) ∧ ∀ o : Orchestrator, o.policy = policy →
        o.perform c = revise { o with receipts := o.receipts + taken [c] } run unknown known := by
  obtain ⟨op, hrevises, heq⟩ := h.revises
  obtain ⟨unknown, known, hid, hop⟩ := hrevises policy
  exact ⟨unknown, known, hid, fun o ho => (heq o).trans (hop _ ho)⟩

end Call.IsAbout

/-- Two orchestrators ask the same of who may decide and have the same record of a run. -/
structure Agree (run : String) (o o' : Orchestrator) : Prop where
  policy : o'.policy = o.policy
  record : o'.store.find? run = o.store.find? run

section

variable {α : Type} {o o' : Orchestrator} {run : String} {unknown : α}
  {known : RunRecord → α × RunRecord}

theorem Agree.refl (run : String) (o : Orchestrator) : Agree run o o := ⟨rfl, rfl⟩

theorem Agree.revise (h : Agree run o o') :
    (o'.revise run unknown known).1 = (o.revise run unknown known).1 ∧
      Agree run (o.revise run unknown known).2 (o'.revise run unknown known).2 := by
  cases hfind : o.store.find? run with
  | none =>
    rw [revise_none hfind, revise_none (h.record.trans hfind)]
    exact ⟨rfl, h⟩
  | some r =>
    rw [revise_some hfind, revise_some (h.record.trans hfind)]
    refine ⟨rfl, h.policy, ?_⟩
    show (o'.store.put (known r).2).find? run = (o.store.put (known r).2).find? run
    rw [RunStore.find?_put, RunStore.find?_put, h.record]

/-- What is left alone when a record is revised: who may decide, which runs there are, and
the records of all other runs. -/
theorem revise_others (o : Orchestrator) (run : String) (unknown : α)
    (hid : ∀ r, (known r).2.run.id = r.run.id) :
    (o.revise run unknown known).2.receipts = o.receipts ∧
      (o.revise run unknown known).2.store.records.map (·.run.id) =
        o.store.records.map (·.run.id) ∧
      ∀ other, run ≠ other → Agree other o (o.revise run unknown known).2 := by
  cases hfind : o.store.find? run with
  | none =>
    rw [revise_none hfind]
    exact ⟨rfl, rfl, fun other _ => .refl other o⟩
  | some r =>
    rw [revise_some hfind]
    refine ⟨rfl, RunStore.map_id_replace _ _, fun other hne => ⟨rfl, ?_⟩⟩
    show (o.store.put (known r).2).find? other = _
    rw [RunStore.find?_put, hid, RunStore.text_of_find? hfind, if_neg hne]

end

namespace Call.IsAbout

variable {run : String} {c : Call} {o o' : Orchestrator}

/-- A call about a run is answered by the record of that run. -/
theorem perform_agree (h : c.IsAbout run) (hagree : Agree run o o') :
    (o'.perform c).1 = (o.perform c).1 ∧ Agree run (o.perform c).2 (o'.perform c).2 := by
  obtain ⟨unknown, known, -, heq⟩ := h.perform_revise o.policy
  rw [heq o rfl, heq o' hagree.policy]
  exact Agree.revise ⟨hagree.policy, hagree.record⟩

theorem perform_others (h : c.IsAbout run) :
    (o.perform c).2.receipts = o.receipts + taken [c] ∧
      (o.perform c).2.store.records.map (·.run.id) = o.store.records.map (·.run.id) ∧
      ∀ other, run ≠ other → Agree other o (o.perform c).2 := by
  obtain ⟨unknown, known, hid, heq⟩ := h.perform_revise o.policy
  rw [heq o rfl]
  obtain ⟨hreceipts, hids, hothers⟩ :=
    revise_others { o with receipts := o.receipts + taken [c] } run unknown hid
  exact ⟨hreceipts, hids, fun other hne => ⟨(hothers other hne).policy, (hothers other hne).record⟩⟩

end Call.IsAbout

/-! ## Several calls -/

def EachAboutOne (calls : List Call) : Prop := ∀ c ∈ calls, ∃ run, c.IsAbout run

def Call.names (run : String) (c : Call) : Bool := c.run? = some run

def naming (run : String) (calls : List Call) : List Call := calls.filter (·.names run)

theorem Call.IsAbout.names_iff {run other : String} {c : Call} (h : c.IsAbout run) :
    c.names other = true ↔ run = other := by
  rw [Call.names, h.run?, decide_eq_true_iff, Option.some.injEq]

def answersNaming (o : Orchestrator) (run : String) : List Call → List Answer
  | [] => []
  | c :: rest =>
    if c.names run then (o.perform c).1 :: answersNaming (o.perform c).2 run rest
    else answersNaming (o.perform c).2 run rest

variable {o o' : Orchestrator} {run : String} {calls : List Call}

/-- The calls that name a run are answered, and leave its record, as if there were no others. -/
theorem Agree.naming (h : Agree run o o') (hone : EachAboutOne calls) :
    o.answersNaming run calls = o'.answers (naming run calls) ∧
      Agree run (o.after calls) (o'.after (naming run calls)) := by
  induction calls generalizing o o' with
  | nil => exact ⟨rfl, h⟩
  | cons c rest ih =>
    obtain ⟨z, hc⟩ := hone c List.mem_cons_self
    have hrest : EachAboutOne rest := fun x hx => hone x (List.mem_cons_of_mem c hx)
    by_cases hz : z = run
    · subst hz
      obtain ⟨hanswer, hagree⟩ := hc.perform_agree h
      obtain ⟨hanswers, hafter⟩ := ih hagree hrest
      simp only [answersNaming, naming, List.filter_cons, hc.names_iff.2 rfl, if_true]
      exact ⟨by rw [answers, hanswer]; exact congrArg (_ :: ·) hanswers, hafter⟩
    · -- the record of the run is not touched, so the rest is answered as before
      have hother : Agree run (o.perform c).2 o' := by
        have hkept := (hc.perform_others (o := o)).2.2 run hz
        exact ⟨h.policy.trans hkept.policy.symm, h.record.trans hkept.record.symm⟩
      simp only [answersNaming, naming, List.filter_cons, hc.names_iff, hz, if_false]
      exact ih hother hrest

theorem EachAboutOne.after (hone : EachAboutOne calls) :
    (o.after calls).receipts = o.receipts + taken calls ∧
      (o.after calls).store.records.map (·.run.id) = o.store.records.map (·.run.id) := by
  induction calls generalizing o with
  | nil => exact ⟨rfl, rfl⟩
  | cons c rest ih =>
    obtain ⟨z, hc⟩ := hone c List.mem_cons_self
    obtain ⟨hreceipts, hids, -⟩ := hc.perform_others (o := o)
    obtain ⟨hreceipts', hids'⟩ := ih (o := (o.perform c).2) fun x hx =>
      hone x (List.mem_cons_of_mem c hx)
    refine ⟨?_, hids'.trans hids⟩
    show ((o.perform c).2.after rest).receipts = _
    rw [hreceipts', hreceipts, taken, taken, taken, Nat.add_assoc, ← List.countP_append]
    rfl

/-- Only the order of the calls that name one run matters. -/
theorem after_eq_of_naming {calls' : List Call} (hone : EachAboutOne calls)
    (hone' : EachAboutOne calls') (hnaming : ∀ run, naming run calls = naming run calls')
    (htaken : taken calls = taken calls') : o.after calls = o.after calls' := by
  have hstore : (o.after calls).store = (o.after calls').store := by
    refine RunStore.eq_of_find? (hone.after.2.trans hone'.after.2.symm) fun run => ?_
    rw [← ((Agree.refl run o).naming hone).2.record, hnaming,
      ((Agree.refl run o).naming hone').2.record]
  have hpolicy : (o.after calls).policy = (o.after calls').policy := by
    rw [after_policy, after_policy]
  have hreceipts : (o.after calls).receipts = (o.after calls').receipts := by
    rw [hone.after.1, hone'.after.1, htaken]
  generalize o.after calls = p, o.after calls' = p' at hstore hpolicy hreceipts
  cases p
  cases p'
  cases hstore
  cases hpolicy
  cases hreceipts
  rfl

/-! ## Two callers -/

/-- The third list holds the calls of the first two, those of each in their order. -/
inductive Interleaving : List Call → List Call → List Call → Prop
  | nil : Interleaving [] [] []
  | left {a b plan : List Call} (c : Call) (h : Interleaving a b plan) :
      Interleaving (c :: a) b (c :: plan)
  | right {a b plan : List Call} (c : Call) (h : Interleaving a b plan) :
      Interleaving a (c :: b) (c :: plan)

namespace Interleaving

variable {a b plan : List Call} {p : Call → Bool}

theorem mem (h : Interleaving a b plan) {c : Call} (hc : c ∈ plan) : c ∈ a ∨ c ∈ b := by
  induction h with
  | nil => cases hc
  | left x _ ih =>
    rcases List.mem_cons.1 hc with rfl | hc
    · exact .inl List.mem_cons_self
    · exact (ih hc).imp_left (List.mem_cons_of_mem x)
  | right x _ ih =>
    rcases List.mem_cons.1 hc with rfl | hc
    · exact .inr List.mem_cons_self
    · exact (ih hc).imp_right (List.mem_cons_of_mem x)

theorem countP (h : Interleaving a b plan) (p : Call → Bool) :
    plan.countP p = a.countP p + b.countP p := by
  induction h with
  | nil => rfl
  | left c _ ih => rw [List.countP_cons, List.countP_cons, ih, Nat.add_right_comm]
  | right c _ ih => rw [List.countP_cons, List.countP_cons, ih, Nat.add_assoc]

/-- A condition that none of the second caller's calls meets is met by calls of the first. -/
theorem filter_left (h : Interleaving a b plan) (hb : ∀ c ∈ b, p c = false) :
    plan.filter p = a.filter p := by
  induction h with
  | nil => rfl
  | left c _ ih => rw [List.filter_cons, List.filter_cons, ih hb]
  | right c _ ih =>
    rw [List.filter_cons, if_neg (Bool.eq_false_iff.1 (hb c List.mem_cons_self)),
      ih fun x hx => hb x (List.mem_cons_of_mem c hx)]

theorem filter_right (h : Interleaving a b plan) (ha : ∀ c ∈ a, p c = false) :
    plan.filter p = b.filter p := by
  induction h with
  | nil => rfl
  | right c _ ih => rw [List.filter_cons, List.filter_cons, ih ha]
  | left c _ ih =>
    rw [List.filter_cons, if_neg (Bool.eq_false_iff.1 (ha c List.mem_cons_self)),
      ih fun x hx => ha x (List.mem_cons_of_mem c hx)]

end Interleaving

theorem naming_self (h : ∀ c ∈ calls, c.IsAbout run) : naming run calls = calls :=
  List.filter_eq_self.2 fun c hc => (h c hc).names_iff.2 rfl

theorem not_names {other : String} (h : ∀ c ∈ calls, c.IsAbout run) (hne : run ≠ other) :
    ∀ c ∈ calls, c.names other = false :=
  fun c hc => Bool.eq_false_iff.2 fun hnames => hne ((h c hc).names_iff.1 hnames)

/-- Calls about one run and calls about another may come in any order: every call is answered
the same, and they leave the same behind them. -/
theorem runs_independent (o : Orchestrator) {x y : String} (hne : x ≠ y) {a b plan : List Call}
    (ha : ∀ c ∈ a, c.IsAbout x) (hb : ∀ c ∈ b, c.IsAbout y) (hplan : Interleaving a b plan) :
    o.after plan = o.after (a ++ b) ∧
      o.answersNaming x plan = o.answers a ∧ o.answersNaming y plan = o.answers b := by
  have hone : EachAboutOne plan := fun c hc =>
    (hplan.mem hc).elim (fun hc => ⟨x, ha c hc⟩) fun hc => ⟨y, hb c hc⟩
  have hone' : EachAboutOne (a ++ b) := fun c hc =>
    (List.mem_append.1 hc).elim (fun hc => ⟨x, ha c hc⟩) fun hc => ⟨y, hb c hc⟩
  have hx : naming x plan = a := by
    rw [naming, hplan.filter_left (not_names hb hne.symm)]
    exact naming_self ha
  have hy : naming y plan = b := by
    rw [naming, hplan.filter_right (not_names ha hne)]
    exact naming_self hb
  refine ⟨after_eq_of_naming hone hone' (fun run => ?_) ?_, ?_, ?_⟩
  · by_cases hrun : y = run
    · subst hrun
      rw [hy, naming, List.filter_append, List.filter_eq_nil_iff.2, List.nil_append]
      · exact (naming_self hb).symm
      · exact fun c hc => Bool.eq_false_iff.1 (not_names ha hne c hc)
    · have hnot := not_names hb hrun
      rw [naming, naming, hplan.filter_left hnot, List.filter_append,
        List.filter_eq_nil_iff.2 fun c hc => Bool.eq_false_iff.1 (hnot c hc), List.append_nil]
  · rw [taken, taken, hplan.countP, List.countP_append]
  · rw [((Agree.refl x o).naming hone).1, hx]
  · rw [((Agree.refl y o).naming hone).1, hy]

def say (id body : String) : Call :=
  .handle default (.ofList []) ⟨"chat", "ann", "ops", body, some id⟩ (.parse body)

theorem isAbout_say {run body : String} (id : String)
    (hkind : (Intent.parse body).kind = .approveRun ∨ (Intent.parse body).kind = .denyRun ∨
      (Intent.parse body).kind = .status) (hrun : (Intent.parse body).run = some run) :
    (say id body).IsAbout run :=
  .message hkind hrun rfl

/-- Two backups wait for a decision.  While one is approved, begun and asked about, the other
is denied, and a cancellation of it comes too late. -/
theorem runs_independent_backups :
    let o := (new .requesterOnly).after ([0, 1].map fun n =>
      .handle default (.ofList [some n]) ⟨"chat", "ann", "ops", "run backup", none⟩
        (.parse "run backup"))
    let approve := say "m1" "yes run-0-0000"
    let start := Call.onStarted default "run-0-0000" "w"
    let ask := say "m2" "status run-0-0000"
    let deny := say "m3" "no run-0-0001"
    let cancel := Call.cancelRun default "run-0-0001" "op" "late"
    let plan := [deny, approve, cancel, start, ask]
    Interleaving [approve, start, ask] [deny, cancel] plan ∧
      o.after plan = o.after [approve, start, ask, deny, cancel] ∧
      o.answersNaming "run-0-0000" plan = o.answers [approve, start, ask] ∧
      o.answersNaming "run-0-0001" plan = o.answers [deny, cancel] ∧
      (o.after plan).statusOf "run-0-0000" = some .running ∧
      (o.after plan).statusOf "run-0-0001" = some .denied := by
  intro o approve start ask deny cancel plan
  have hplan : Interleaving [approve, start, ask] [deny, cancel] plan :=
    .right _ (.left _ (.right _ (.left _ (.left _ .nil))))
  have hfirst : ∀ c ∈ [approve, start, ask], c.IsAbout "run-0-0000" := by
    simp only [List.forall_mem_cons, List.not_mem_nil, false_implies, implies_true, and_true]
    exact ⟨isAbout_say _ (.inl rfl) rfl, .onStarted _ _,
      isAbout_say _ (.inr (.inr rfl)) rfl⟩
  have hsecond : ∀ c ∈ [deny, cancel], c.IsAbout "run-0-0001" := by
    simp only [List.forall_mem_cons, List.not_mem_nil, false_implies, implies_true, and_true]
    exact ⟨isAbout_say _ (.inr (.inl rfl)) rfl, .cancelRun _ _ _⟩
  obtain ⟨hafter, hanswers, hanswers'⟩ :=
    runs_independent o (by decide) hfirst hsecond hplan
  exact ⟨hplan, hafter, hanswers, hanswers', rfl, rfl⟩

end Orchestrator
end JobGate
