/-
Somebody is told of everything once.

Notices about events and the events themselves are compared run by run: those that were
sent about a run are, in the order in which they were sent, those of its log, in the order
in which it was written (`Told`).  Every call keeps this up, because it sends one notice
for each event of which somebody is told and no other that could be taken for one
(`Tells`).  A duplicate report appends nothing, and so it tells nobody.
-/
import JobGate.Proofs.Orchestrator.Answers
import Mathlib.Data.List.Forall2

namespace JobGate
namespace Orchestrator

/-! ## Notices and events -/

def Call.message? : Call → Option Inbound
  | .handle _ _ m _ => some m
  | .onStarted .. | .onCompleted .. | .onTimeout .. | .cancelRun .. | .timeOutStale .. => none

/-- A notice, returned by some call, tells of an event of a run.  A decision is told where
it was made, and all else where the run belongs. -/
structure Announces (run : Run) (c : Call) (n : Notice) (e : Event) : Prop where
  key : ∃ purpose, e.kind.purpose? = some purpose ∧
    n.key = ⟨[purpose, run.id.text, toString e.seq, n.channel, n.conversation]⟩
  correlation : n.correlation = .to run.id.text
  place : if e.kind = .dispatched ∨ e.kind = .denied then
      ∃ m, c.message? = some m ∧ n.channel = m.channel ∧ n.conversation = m.conversation
    else n.channel = run.channel ∧ n.conversation = run.conversation

namespace Announces

variable {run run' : Run} {c : Call} {n : Notice} {e : Event}

theorem kind? (h : Announces run c n e) : n.kind? = some e.kind := by
  obtain ⟨purpose, hpurpose, hkey⟩ := h.key
  exact Notice.kind?_of_purpose hpurpose (by rw [hkey]; rfl)

theorem isFinal (h : Announces run c n e) : n.isFinal = e.kind.isEnd := by
  rw [Notice.isFinal, h.kind?, Option.any_some]

theorem of_status {status : Status} (h : Announces run c n e)
    (hrun : run' = { run with status }) : Announces run' c n e := by
  subst hrun
  exact ⟨h.key, h.correlation, h.place⟩

theorem of_ofEvent {purpose body : String} (hpurpose : e.kind.purpose? = some purpose)
    (hplace : ¬ (e.kind = .dispatched ∨ e.kind = .denied)) :
    Announces run c (Notice.ofEvent run e purpose body) e where
  key := ⟨purpose, hpurpose, rfl⟩
  correlation := rfl
  place := by
    rw [if_neg hplace]
    exact ⟨rfl, rfl⟩

theorem of_ofEventIn {purpose body : String} {m : Inbound} (hc : c.message? = some m)
    (hpurpose : e.kind.purpose? = some purpose)
    (hplace : e.kind = .dispatched ∨ e.kind = .denied) :
    Announces run c (Notice.ofEventIn run e purpose m.channel m.conversation body) e where
  key := ⟨purpose, hpurpose, rfl⟩
  correlation := rfl
  place := by
    rw [if_pos hplace]
    exact ⟨m, hc, rfl, rfl⟩

end Announces

def RepliesTo (c : Call) (n : Notice) : Prop :=
  ∃ m purpose scope body, c.message? = some m ∧ purpose ∈ Notice.replyPurposes ∧
    n = Notice.reply m purpose scope body

theorem RepliesTo.not_aboutEvent {c : Call} {n : Notice} (h : RepliesTo c n) :
    n.isAboutEvent = false := by
  obtain ⟨m, purpose, scope, body, -, hpurpose, rfl⟩ := h
  rw [Notice.isAboutEvent, Notice.kind?_reply hpurpose]
  rfl

/-- The notices tell of those among some events of which somebody is told, one by one. -/
def Announced (run : Run) (c : Call) (ns : List Notice) (events : List Event) : Prop :=
  List.Forall₂ (Announces run c) ns (events.filter (·.kind.isTold))

/-! ## What has been sent -/

def sent (o : Orchestrator) (calls : List Call) : List (Call × Notice) :=
  (calls.zip (o.answers calls)).flatMap fun (c, answer) => answer.notices.map (c, ·)

def about (run : String) (sent : List (Call × Notice)) : List (Call × Notice) :=
  sent.filter fun p => p.2.isAboutEvent && p.2.correlation == .to run

theorem length_answers (o : Orchestrator) (calls : List Call) :
    (o.answers calls).length = calls.length := by
  induction calls generalizing o with
  | nil => rfl
  | cons c rest ih => exact congrArg (· + 1) (ih _)

theorem sent_concat (o : Orchestrator) (calls : List Call) (c : Call) :
    o.sent (calls ++ [c]) =
      o.sent calls ++ ((o.after calls).perform c).1.notices.map (c, ·) := by
  unfold sent
  rw [answers_concat, List.zip_append (length_answers o calls).symm, List.flatMap_append]
  simp only [List.zip_cons_cons, List.zip_nil_left, List.flatMap_singleton]

/-- A notice was returned by a call, after those before it. -/
theorem mem_sent {o : Orchestrator} {calls : List Call} {p : Call × Notice}
    (hp : p ∈ o.sent calls) : ∃ before after, calls = before ++ p.1 :: after ∧
      p.2 ∈ ((o.after before).perform p.1).1.notices := by
  induction calls using List.reverseRecOn with
  | nil => cases hp
  | append_singleton calls c ih =>
    rw [sent_concat] at hp
    rcases List.mem_append.1 hp with hp | hp
    · obtain ⟨before, after, rfl, hn⟩ := ih hp
      exact ⟨before, after ++ [c], by rw [List.append_assoc, List.cons_append], hn⟩
    · obtain ⟨n, hn, rfl⟩ := List.mem_map.1 hp
      exact ⟨calls, [], rfl, hn⟩

theorem about_append (run : String) (a b : List (Call × Notice)) :
    about run (a ++ b) = about run a ++ about run b := List.filter_append ..

theorem mem_about {run : String} {sent : List (Call × Notice)} {p : Call × Notice} :
    p ∈ about run sent ↔ p ∈ sent ∧ p.2.isAboutEvent = true ∧ p.2.correlation = .to run := by
  simp only [about, List.mem_filter, Bool.and_eq_true, beq_iff_eq]

section

variable {run : Run} {c : Call} {ns : List Notice} {events : List Event}

theorem Announced.mem (h : Announced run c ns events) {n : Notice} (hn : n ∈ ns) :
    n.isAboutEvent = true ∧ n.correlation = .to run.id.text := by
  unfold Announced at h
  generalize events.filter (·.kind.isTold) = told at h
  induction h with
  | nil => cases hn
  | cons hfirst _ ih =>
    rcases List.mem_cons.1 hn with rfl | hn
    · exact ⟨by rw [Notice.isAboutEvent, hfirst.kind?]; rfl, hfirst.correlation⟩
    · exact ih hn

/-- Notices that announce events of one run are about that run. -/
theorem Announced.about_self (h : Announced run c ns events) :
    about run.id.text (ns.map (c, ·)) = ns.map (c, ·) := by
  refine List.filter_eq_self.2 fun p hp => ?_
  obtain ⟨n, hn, rfl⟩ := List.mem_map.1 hp
  obtain ⟨habout, hcorrelation⟩ := h.mem hn
  rw [habout, hcorrelation, beq_self_eq_true, Bool.and_self]

theorem Announced.about_other (h : Announced run c ns events) {other : String}
    (hne : run.id.text ≠ other) : about other (ns.map (c, ·)) = [] := by
  refine List.filter_eq_nil_iff.2 fun p hp => ?_
  obtain ⟨n, hn, rfl⟩ := List.mem_map.1 hp
  simp only [(h.mem hn).2, Bool.and_eq_true, beq_iff_eq, Correlation.to.injEq, hne, and_false,
    not_false_eq_true]

theorem about_replies (hns : ∀ n ∈ ns, RepliesTo c n) (other : String) :
    about other (ns.map (c, ·)) = [] := by
  refine List.filter_eq_nil_iff.2 fun p hp => ?_
  obtain ⟨n, hn, rfl⟩ := List.mem_map.1 hp
  simp only [(hns n hn).not_aboutEvent, Bool.false_and, Bool.false_eq_true, not_false_eq_true]

theorem Announced.forall₂_map (h : Announced run c ns events) :
    List.Forall₂ (fun p e => Announces run p.1 p.2 e) (ns.map (c, ·))
      (events.filter (·.kind.isTold)) :=
  List.forall₂_map_left_iff.2 h

end

/-! ## What calls tell -/

/-- What a call tells while it changes the records. -/
inductive Tells (c : Call) : RunStore → List Notice → RunStore → Prop
  | replied {s : RunStore} {ns : List Notice} (hns : ∀ n ∈ ns, RepliesTo c n) : Tells c s ns s
  | added {s s' : RunStore} {r : RunRecord} {ns : List Notice} (hinsert : s.insert? r = some s')
      (htold : Announced r.run c ns r.events) : Tells c s ns s'
  | extended {s : RunStore} {run : String} {r r' : RunRecord} {new : List Event}
      {ns : List Notice} (hfind : s.find? run = some r)
      (hrun : r'.run = { r.run with status := r'.run.status })
      (hevents : r'.events = r.events ++ new) (htold : Announced r'.run c ns new) :
      Tells c s ns (s.put r')
  | trans {s s' s'' : RunStore} {ns ns' : List Notice} (h : Tells c s ns s')
      (h' : Tells c s' ns' s'') : Tells c s (ns ++ ns') s''

theorem Tells.of_append {c : Call} {s : RunStore} {run : String} {r r' : RunRecord}
    {kind : EventKind} {actor : String} {payload : Payload} {time : Instant} {e : Event}
    {ns : List Notice} (hfind : s.find? run = some r)
    (happend : r.append kind actor payload time = .ok (e, r'))
    (htold : Announced r'.run c ns [e]) : Tells c s ns (s.put r') :=
  .extended hfind (RunRecord.append_run happend) (RunRecord.append_events happend).1 htold

theorem Heard.tells {o o' : Orchestrator} {d : Received} {i : Intent} {c : Call}
    {result : Except OrchestratorError InboundOutcome} (h : o.Heard d i result o')
    (hc : c.message? = some d.message) :
    Tells c o.store (Answer.inbound result).notices o'.store := by
  cases h with
  | failed _ _ => exact .replied nofun
  | replied hnotices _ =>
    refine .replied fun n hn => ?_
    rw [Answer.notices, hnotices] at hn
    obtain ⟨purpose, hpurpose, state, body, -, rfl⟩ := (mem_replies hn).eq_reply
    exact ⟨_, purpose, _, body, hc, hpurpose, rfl⟩
  | requested _ _ happend hinsert =>
    obtain ⟨hevents, hkind, -⟩ := RunRecord.append_events happend
    refine .added hinsert ?_
    rw [Announced, hevents, List.filter_append, List.filter_singleton, hkind]
    exact .cons (.of_ofEvent (by rw [hkind]; rfl) (by rw [hkind]; decide)) .nil
  | denied _ _ hfind _ _ happend =>
    have hkind := (RunRecord.append_events happend).2.1
    refine .of_append hfind happend ?_
    rw [Announced, List.filter_singleton, hkind]
    exact .cons (.of_ofEventIn hc (by rw [hkind]; rfl) (.inr hkind)) .nil
  | approved _ _ hfind _ _ happend hdispatch =>
    obtain ⟨hevents, hkind, -⟩ := RunRecord.append_events happend
    obtain ⟨hevents', hkind', -⟩ := RunRecord.append_events hdispatch
    have hrun := RunRecord.append_run hdispatch
    rw [RunRecord.append_run happend] at hrun
    rw [hevents, List.append_assoc] at hevents'
    refine .extended hfind hrun hevents' ?_
    rw [Announced, List.filter_append, List.filter_singleton, List.filter_singleton, hkind, hkind']
    exact .cons (.of_ofEventIn hc (by rw [hkind']; rfl) (.inl hkind')) .nil

theorem Reported.tells {o o' : Orchestrator} {run : String} {kind : EventKind} {actor : String}
    {outcome : ExecutionOutcome} (h : o.Reported run kind actor outcome o')
    (hkind : kind.isExecution = true) (c : Call) :
    Tells c o.store outcome.notices o'.store := by
  cases h with
  | unknown _ => exact .replied nofun
  | refused _ _ => exact .replied nofun
  | @took r r' _ _ e body hfind happend =>
    have he := (RunRecord.append_events happend).2.1
    refine .of_append hfind happend ?_
    rw [Announced, List.filter_singleton, he]
    show List.Forall₂ _ (Notice.ofKind kind r'.run e body) _
    unfold Notice.ofKind EventKind.isTold
    have hplace : ¬ (e.kind = .dispatched ∨ e.kind = .denied) := by
      rw [he]
      rintro (rfl | rfl) <;> cases hkind
    cases hpurpose : kind.purpose? with
    | none => exact .nil
    | some purpose => exact .cons (.of_ofEvent (by rw [he, hpurpose]) hplace) .nil

theorem Sweeps.tells {o o' : Orchestrator} {outcomes : List ExecutionOutcome}
    (h : o.Sweeps outcomes o') (c : Call) :
    Tells c o.store (outcomes.flatMap (·.notices)) o'.store := by
  induction h with
  | done _ => exact .replied nofun
  | next hfirst _ _ ih => exact (hfirst.tells rfl c).trans ih

theorem Call.report?_isExecution {c : Call} {report : Report} (h : c.report? = some report) :
    report.kind.isExecution = true := by
  cases c with
  | onCompleted _ _ _ success _ =>
    cases h
    exact endKind_isExecution success
  | handle _ _ _ _ => cases h
  | timeOutStale _ _ _ => cases h
  | onStarted _ _ _ | onTimeout _ _ _ | cancelRun _ _ _ _ =>
    cases h
    rfl

theorem Performs.tells {o o' : Orchestrator} {c : Call} {answer : Answer}
    (h : o.Performs c answer o') : Tells c o.store answer.notices o'.store := by
  cases h with
  | heard h => exact h.tells rfl
  | reported hreport h => exact h.tells (Call.report?_isExecution hreport) _
  | swept h => exact h.tells _

theorem Tells.mem {c : Call} {s s' : RunStore} {ns : List Notice} (h : Tells c s ns s')
    {n : Notice} (hn : n ∈ ns) : n.isAboutEvent = true ∨ RepliesTo c n := by
  induction h with
  | replied hns => exact .inr (hns n hn)
  | added _ htold => exact .inl (htold.mem hn).1
  | extended _ _ _ htold => exact .inl (htold.mem hn).1
  | trans _ _ ih ih' =>
    rcases List.mem_append.1 hn with hn | hn
    · exact ih hn
    · exact ih' hn

/-! ## Histories -/

/-- The notices sent about a run are those of the events in its log, and nothing is told
of runs that are not known. -/
structure Told (s : RunStore) (sent : List (Call × Notice)) : Prop where
  log : ∀ ⦃run r⦄, s.find? run = some r →
    List.Forall₂ (fun p e => Announces r.run p.1 p.2 e) (about run sent)
      (r.events.filter (·.kind.isTold))
  known : ∀ p ∈ sent, p.2.isAboutEvent = true →
    ∃ run r, s.find? run = some r ∧ p.2.correlation = .to run

namespace Told

variable {s s' : RunStore} {sent : List (Call × Notice)} {c : Call} {ns : List Notice}

theorem about_unknown (h : Told s sent) {run : String} (hnone : s.find? run = none) :
    about run sent = [] := by
  refine List.eq_nil_iff_forall_not_mem.2 fun p hp => ?_
  obtain ⟨hsent, habout, hcorrelation⟩ := mem_about.1 hp
  obtain ⟨run', r, hfind, hcorrelation'⟩ := h.known p hsent habout
  cases hcorrelation.symm.trans hcorrelation'
  cases hnone.symm.trans hfind

theorem known_append (h : Told s sent)
    (hkept : ∀ ⦃run r⦄, s.find? run = some r → ∃ r', s'.find? run = some r')
    (hnew : ∀ n ∈ ns, n.isAboutEvent = true →
      ∃ run r, s'.find? run = some r ∧ n.correlation = .to run) :
    ∀ p ∈ sent ++ ns.map (c, ·), p.2.isAboutEvent = true →
      ∃ run r, s'.find? run = some r ∧ p.2.correlation = .to run := by
  intro p hp habout
  rcases List.mem_append.1 hp with hp | hp
  · obtain ⟨run, r, hfind, hcorrelation⟩ := h.known p hp habout
    obtain ⟨r', hr'⟩ := hkept hfind
    exact ⟨run, r', hr', hcorrelation⟩
  · obtain ⟨n, hn, rfl⟩ := List.mem_map.1 hp
    exact hnew n hn habout

theorem replied (h : Told s sent) (hns : ∀ n ∈ ns, RepliesTo c n) :
    Told s (sent ++ ns.map (c, ·)) where
  log := by
    intro run r hfind
    rw [about_append, about_replies hns, List.append_nil]
    exact h.log hfind
  known := by
    refine h.known_append (fun _ r hfind => ⟨r, hfind⟩) fun n hn habout => ?_
    cases habout.symm.trans (hns n hn).not_aboutEvent

theorem added {r : RunRecord} (h : Told s sent) (hinsert : s.insert? r = some s')
    (htold : Announced r.run c ns r.events) : Told s' (sent ++ ns.map (c, ·)) where
  log := by
    intro run x hx
    rw [about_append]
    rw [RunStore.find?_insert hinsert] at hx
    by_cases hrun : r.run.id.text = run
    · subst hrun
      rw [if_pos rfl] at hx
      cases hx
      rw [h.about_unknown (RunStore.records_insert? hinsert).1, htold.about_self]
      exact htold.forall₂_map
    · rw [if_neg hrun] at hx
      rw [htold.about_other hrun, List.append_nil]
      exact h.log hx
  known := by
    refine h.known_append (fun _ _ hfind => ?_) fun n hn _ => ?_
    · obtain ⟨x, hx, -⟩ := RunStore.Grows.of_insert hinsert hfind
      exact ⟨x, hx⟩
    · exact ⟨_, r, by rw [RunStore.find?_insert hinsert, if_pos rfl], (htold.mem hn).2⟩

theorem extended {run : String} {r r' : RunRecord} {new : List Event} (h : Told s sent)
    (hfind : s.find? run = some r) (hrun : r'.run = { r.run with status := r'.run.status })
    (hevents : r'.events = r.events ++ new) (htold : Announced r'.run c ns new) :
    Told (s.put r') (sent ++ ns.map (c, ·)) := by
  have hid : r'.run.id = r.run.id := by rw [hrun]
  have htext : r'.run.id.text = run := by rw [hid, RunStore.text_of_find? hfind]
  have hput : (s.put r').find? run = some r' := RunStore.find?_put_of_id hfind hid
  constructor
  · intro other x hx
    rw [about_append]
    rcases RunStore.of_find?_put hx with ⟨hother, rfl⟩ | ⟨hother, hold⟩
    · subst hother
      rw [htold.about_self, hevents, List.filter_append]
      -- what was told before is told of the run as it is now
      have hbefore := (h.log (htext ▸ hfind)).imp fun _ _ hannounces => hannounces.of_status hrun
      exact List.rel_append hbefore htold.forall₂_map
    · rw [htold.about_other hother, List.append_nil]
      exact h.log hold
  · refine h.known_append (fun other x hx => ?_) fun n hn _ => ?_
    · by_cases hother : r'.run.id.text = other
      · exact ⟨r', by rw [← hother, htext, hput]⟩
      · exact ⟨x, by rw [RunStore.find?_put, if_neg hother, hx]⟩
    · exact ⟨run, r', hput, htext ▸ (htold.mem hn).2⟩

theorem tells (h : Told s sent) (htells : Tells c s ns s') :
    Told s' (sent ++ ns.map (c, ·)) := by
  induction htells generalizing sent with
  | replied hns => exact h.replied hns
  | added hinsert htold => exact h.added hinsert htold
  | extended hfind hrun hevents htold => exact h.extended hfind hrun hevents htold
  | trans _ _ ih ih' =>
    rw [List.map_append, ← List.append_assoc]
    exact ih' (ih h)

end Told

theorem after_told (policy : Policy) (calls : List Call) :
    Told ((new policy).after calls).store ((new policy).sent calls) := by
  induction calls using List.reverseRecOn with
  | nil =>
    constructor
    · intro run r hfind
      cases hfind
    · intro p hp
      cases hp
  | append_singleton calls c ih =>
    rw [sent_concat, after_concat]
    exact ih.tells (perform_performs (after_regular policy calls) c).tells

end Orchestrator

/-! ## Final notices -/

theorem EventKind.isEnd_of_apply {s t : Status} {k : EventKind} (h : s.apply k = some t)
    (ht : t.isTerminal = true) : k.isEnd = true := by
  cases k <;> cases s <;> simp [Status.apply, Status.isTerminal] at h <;> subst h <;>
    first | rfl | cases ht

/-- A log holds an event that ends the run just when the run is over. -/
theorem RunRecord.Faithful.countP_isEnd {r : RunRecord} (h : r.Faithful) :
    r.events.countP (·.kind.isEnd) = if r.status.isTerminal then 1 else 0 := by
  have hpath : ∀ s : Status, s.path.countP (·.isEnd) = 0 := by
    intro s
    cases s <;> decide
  show r.events.countP ((·.isEnd) ∘ (·.kind)) = _
  rw [← List.countP_map]
  rcases kinds_of_replay h with ⟨hactive, hkinds⟩ | ⟨t, k, happly, hover, hkinds⟩
  · rw [hkinds, hactive, hpath]
    rfl
  · rw [hkinds, hover, List.countP_append, hpath, List.countP_singleton,
      EventKind.isEnd_of_apply happly hover]
    rfl

theorem countP_eq_of_forall₂ {α β : Type} {R : α → β → Prop} {p : α → Bool} {q : β → Bool}
    {as : List α} {bs : List β} (h : List.Forall₂ R as bs) (hpq : ∀ a b, R a b → p a = q b) :
    as.countP p = bs.countP q := by
  induction h with
  | nil => rfl
  | cons hfirst _ ih => rw [List.countP_cons, List.countP_cons, ih, hpq _ _ hfirst]

namespace Orchestrator

theorem Told.countP_isFinal {s : RunStore} {sent : List (Call × Notice)} (h : Told s sent)
    {run : String} {r : RunRecord} (hfind : s.find? run = some r) (hr : r.Faithful) :
    (about run sent).countP (·.2.isFinal) = if r.status.isTerminal then 1 else 0 := by
  rw [← hr.countP_isEnd]
  have hcount := countP_eq_of_forall₂ (p := fun p => p.2.isFinal) (q := fun e => e.kind.isEnd)
    (h.log hfind) fun _ _ hannounces => hannounces.isFinal
  rw [hcount, List.countP_filter]
  refine List.countP_congr fun e _ => ?_
  simp only [Bool.and_eq_true, and_iff_left_iff_imp]
  exact EventKind.isTold_of_isEnd

/-- Whatever was called for, in whatever order: the notices about events that were sent are
the events of which somebody is told, one for one.  Each is about a run that is known; and
those about a run tell, in their order, of the events in its log, each by a key of its
own, where the run belongs or where the decision was made.  One of them is final when the
run is over, and none before.  Whatever else was sent replies to the message of the call. -/
theorem told_once (policy : Policy) (calls : List Call) :
    (∀ run r, ((new policy).after calls).store.find? run = some r →
      List.Forall₂ (fun p e => Announces r.run p.1 p.2 e) (about run ((new policy).sent calls))
          (r.events.filter (·.kind.isTold)) ∧
        (about run ((new policy).sent calls)).countP (·.2.isFinal) =
          if r.status.isTerminal then 1 else 0) ∧
    ∀ p ∈ (new policy).sent calls,
      (p.2.isAboutEvent = true → ∃ run r, ((new policy).after calls).store.find? run = some r ∧
        p ∈ about run ((new policy).sent calls)) ∧
      (p.2.isAboutEvent = false → RepliesTo p.1 p.2) := by
  have htold := after_told policy calls
  refine ⟨fun run r hfind => ?_, fun p hp => ⟨fun habout => ?_, fun hreply => ?_⟩⟩
  · exact ⟨htold.log hfind,
      htold.countP_isFinal hfind (after_regular policy calls hfind).faithful⟩
  · obtain ⟨run, r, hfind, hcorrelation⟩ := htold.known p hp habout
    exact ⟨run, r, hfind, mem_about.2 ⟨hp, habout, hcorrelation⟩⟩
  · obtain ⟨before, after, -, hn⟩ := mem_sent hp
    have hperforms := perform_performs (after_regular policy before) p.1
    rcases hperforms.tells.mem hn with habout | hreplies
    · cases hreply.symm.trans habout
    · exact hreplies

end Orchestrator
end JobGate
