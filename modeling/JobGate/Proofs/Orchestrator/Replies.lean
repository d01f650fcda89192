/-
Replies, and the messages that they reply to.

The key of a reply holds what the message is known by.  A message that its channel gave no
identifier is known by a receipt number, and no two messages are given one number
(`after_receipts`).  A message with an identifier may come again, and be replied to again:
the key then holds how long the log of the run was, and since a log only grows, two replies
with one key were read from the same record (`replies_unique`, `eq_of_lastSeq`).
-/
import JobGate.Proofs.Message.Key
import JobGate.Proofs.Orchestrator.Notification
import JobGate.Proofs.Run.Numbering

namespace JobGate
namespace Orchestrator

/-! ## Keys of replies -/

section

variable {policy : Policy} {d : Received} {i : Intent} {r r' : Option RunRecord} {n n' : Notice}

theorem receiptScope_of_some {id : String} (h : d.message.providerId = some id) :
    d.receiptScope = [] := by
  unfold Received.receiptScope
  rw [h]

theorem receiptScope_of_none (h : d.message.providerId = none) :
    d.receiptScope = ["receipt-" ++ toString d.receipt] := by
  unfold Received.receiptScope
  rw [h]

theorem IsReply.isPlain (h : IsReply r d i n) (hm : d.message.IsPlain) : n.key.IsPlain := by
  obtain ⟨purpose, hpurpose, state, body, hstate, rfl⟩ := h.eq_reply
  have hmessage : ∀ s ∈ [purpose, d.message.channel, d.message.conversation, d.message.sender,
      d.message.source], Text.IsPlain s := by
    simp only [List.forall_mem_cons, List.not_mem_nil, false_implies, implies_true, and_true]
    exact ⟨Notice.isPlain_replyPurpose hpurpose, hm.fields .channel, hm.fields .conversation,
      hm.fields .sender, hm.source⟩
  have hscope : ∀ s ∈ state, Text.IsPlain s := by
    rcases hstate with rfl | ⟨x, -, rfl⟩
    · exact nofun
    · simp only [List.forall_mem_cons, List.not_mem_nil, false_implies, implies_true, and_true]
      exact ⟨Text.isPlain_toString _, x.status.isPlain_name⟩
  have hreceipt : ∀ s ∈ d.receiptScope, Text.IsPlain s := by
    cases hid : d.message.providerId with
    | some id =>
      rw [receiptScope_of_some hid]
      exact nofun
    | none =>
      rw [receiptScope_of_none hid, List.forall_mem_singleton]
      exact Text.isPlain_append.2 ⟨by decide, Text.isPlain_toString _⟩
  refine ⟨List.cons_ne_nil _ _, List.forall_mem_append.2 ⟨hmessage, ?_⟩⟩
  exact List.forall_mem_append.2 ⟨hscope, hreceipt⟩

/-- From the number of its parts it is seen whether a key holds a receipt number. -/
theorem IsReply.unmarked_iff (h : IsReply r d i n) :
    d.message.providerId = none ↔ n.key.parts.length % 2 = 0 := by
  obtain ⟨purpose, -, state, body, hstate, rfl⟩ := h.eq_reply
  have hlength : state.length % 2 = 0 := by
    rcases hstate with rfl | ⟨x, -, rfl⟩
    · exact Nat.zero_mod 2
    · exact Nat.mod_self 2
  have hparts : (Notice.reply d.message purpose (state ++ d.receiptScope) body).key.parts.length =
      5 + (state.length + d.receiptScope.length) := by
    rw [← List.length_append]
    exact List.length_append
  rw [hparts]
  cases hid : d.message.providerId with
  | some id =>
    simp only [receiptScope_of_some hid, List.length_nil, reduceCtorEq, false_iff]
    omega
  | none =>
    simp only [receiptScope_of_none hid, List.length_singleton, true_iff]
    omega

theorem IsReply.getLast?_parts (h : IsReply r d i n) (hnone : d.message.providerId = none) :
    n.key.parts.getLast? = some ("receipt-" ++ toString d.receipt) := by
  obtain ⟨purpose, -, state, body, -, rfl⟩ := h.eq_reply
  show (_ ++ (state ++ d.receiptScope)).getLast? = _
  rw [receiptScope_of_none hnone, ← List.append_assoc, List.getLast?_concat]

/-- The receipt number does not matter to a message with an identifier. -/
theorem replies_receipt {id : String} (h : d.message.providerId = some id) (receipt : Nat) :
    replies policy r { d with receipt } i = replies policy r d i := by
  have hscope : { d with receipt }.receiptScope = d.receiptScope := by
    rw [receiptScope_of_some h, receiptScope_of_some (d := { d with receipt }) h]
  unfold replies objections refuseLate refuseSender Received.guidance Received.notFound
    Received.reply Received.replyAbout
  rw [hscope]

/-- A message that asks for a new run is not replied to by the record of another. -/
theorem replies_runJob (h : i.kind = .runJob) :
    replies policy r d i = replies policy r' d i := by
  unfold replies
  simp only [h]

theorem eq_singleton_of_mem {α : Type} {l : List α} {a : α} (h : l.length ≤ 1) (ha : a ∈ l) :
    l = [a] := by
  cases l with
  | nil => cases ha
  | cons x rest =>
    have hrest : rest = [] := List.eq_nil_of_length_eq_zero (by simpa using h)
    subst hrest
    rw [List.mem_singleton.1 ha]

/-- Replies to one message that have one key are the same, unless the records that they
tell of differ although their logs are equally long. -/
theorem replies_unique (hn : n ∈ replies policy r d i) (hn' : n' ∈ replies policy r' d i)
    (hkey : n.key = n'.key)
    (hsame : ∀ x x', r = some x → r' = some x' → x.lastSeq = x'.lastSeq → x = x') : n = n' := by
  have hhead : n.key.parts.head? = n'.key.parts.head? := by rw [hkey]
  have habout : ∀ {purpose}, purpose ∈ ["status", "invalid_transition", "unauthorized"] →
      purpose ≠ "guidance" ∧ purpose ≠ "not_found" := by
    rintro purpose hpurpose
    constructor
    · rintro rfl
      exact absurd hpurpose (by decide)
    · rintro rfl
      exact absurd hpurpose (by decide)
  have hreply := mem_replies hn
  have hreply' := mem_replies hn'
  cases hreply with
  | guidance =>
    cases hreply' with
    | guidance => rfl
    | notFound _ => exact absurd (Option.some.inj hhead) (by decide)
    | about _ hpurpose => exact absurd (Option.some.inj hhead).symm (habout hpurpose).1
  | notFound hrun =>
    cases hreply' with
    | guidance => exact absurd (Option.some.inj hhead) (by decide)
    | notFound hrun' =>
      cases hrun.symm.trans hrun'
      rfl
    | about _ hpurpose => exact absurd (Option.some.inj hhead).symm (habout hpurpose).2
  | @about x purpose body hnamed hpurpose =>
    cases hreply' with
    | guidance => exact absurd (Option.some.inj hhead) (habout hpurpose).1
    | notFound _ => exact absurd (Option.some.inj hhead) (habout hpurpose).2
    | @about x' purpose' body' hnamed' _ =>
      -- the number of the last event stands in the key, behind the message
      have hseq : (d.replyAbout x purpose body).key.parts[5]? =
          (d.replyAbout x' purpose' body').key.parts[5]? := by rw [hkey]
      cases hsame x x' hnamed hnamed' (Text.toString_inj.1 (Option.some.inj hseq))
      rw [hnamed'] at hn'
      rw [hnamed, eq_singleton_of_mem (length_replies_le _) hn'] at hn
      exact List.mem_singleton.1 hn

theorem IsReply.message_eq {d d' : Received} {i i' : Intent} {r r' : Option RunRecord}
    {n n' : Notice} (h : IsReply r d i n) (h' : IsReply r' d' i' n') (hkey : n.key = n'.key) :
    d.message.channel = d'.message.channel ∧ d.message.conversation = d'.message.conversation ∧
      d.message.sender = d'.message.sender ∧ d.message.source = d'.message.source := by
  obtain ⟨_, -, _, _, -, rfl⟩ := h.eq_reply
  obtain ⟨_, -, _, _, -, rfl⟩ := h'.eq_reply
  simp only [Notice.reply, Key.mk.injEq, List.cons_append, List.cons.injEq] at hkey
  exact ⟨hkey.2.1, hkey.2.2.1, hkey.2.2.2.1, hkey.2.2.2.2.1⟩

theorem replies_of_find? {policy : Policy} {s s' : RunStore} {d : Received} {i : Intent}
    (h : i.kind ≠ .runJob → ∀ run, i.run = some run → s'.find? run = s.find? run) :
    replies policy (named s' i) d i = replies policy (named s i) d i := by
  by_cases hkind : i.kind = .runJob
  · exact replies_runJob hkind
  · have hnamed : named s' i = named s i := by
      unfold named
      cases hrun : i.run with
      | none => rfl
      | some run => exact h hkind run hrun
    rw [hnamed]

/-- A message with an identifier is replied to as before, when it comes again and the run
that it names is as before. -/
theorem handle_again {o : Orchestrator} (hregular : o.store.Regular) {s : RunStore} {m : Inbound}
    {id : String} {receipt : Nat} {i : Intent} {n : Notice} (hid : m.providerId = some id)
    (hn : n ∈ replies o.policy (named s i) ⟨m, receipt⟩ i)
    (hfind : i.kind ≠ .runJob → ∀ run, i.run = some run → o.store.find? run = s.find? run)
    (clock : Readings) (draws : Draws) :
    (o.perform (.handle clock draws m i)).1.notices = [n] := by
  have hreplies : replies o.policy (named o.store i) ⟨m, o.receipts + 1⟩ i = [n] := by
    rw [replies_of_find? hfind, ← replies_receipt (d := ⟨m, o.receipts + 1⟩) hid receipt]
    exact eq_singleton_of_mem (length_replies_le _) hn
  rcases (handle_heard hregular clock draws m i).replies_eq with ⟨outcome, hresult, hnotices⟩ | hnil
  · show Answer.notices (.inbound (o.handle clock draws m i).1) = [n]
    rw [hresult]
    exact hnotices.trans hreplies
  · cases hreplies.symm.trans hnil

end

/-! ## Receipts -/

theorem Call.message?_of_report? {c : Call} {report : Report} (h : c.report? = some report) :
    c.message? = none := by
  cases c with
  | handle _ _ _ _ => cases h
  | _ => rfl

theorem Performs.receipts {o o' : Orchestrator} {c : Call} {answer : Answer}
    (h : o.Performs c answer o') :
    o'.receipts = o.receipts + if c.message?.isSome then 1 else 0 := by
  cases h with
  | heard h => exact h.receipts
  | reported hreport h =>
    rw [h.receipts, Call.message?_of_report? hreport]
    rfl
  | swept h => exact h.receipts

def taken (calls : List Call) : Nat := calls.countP (·.message?.isSome)

theorem taken_lt {before after : List Call} {c : Call} (hc : c.message?.isSome = true) :
    taken before < taken (before ++ c :: after) := by
  rw [taken, taken, List.countP_append, List.countP_cons, if_pos hc]
  omega

/-- Every message that is taken uses up one receipt number. -/
theorem after_receipts (policy : Policy) (calls : List Call) :
    ((new policy).after calls).receipts = taken calls := by
  induction calls using List.reverseRecOn with
  | nil => rfl
  | append_singleton calls c ih =>
    have hperforms := perform_performs (after_regular policy calls) c
    rw [after_concat, hperforms.receipts, ih, taken, taken, List.countP_append,
      List.countP_singleton]

/-- A message is replied to, and nothing is done, or all notices are about events. -/
theorem Performs.replied_or_about {o o' : Orchestrator} {c : Call} {answer : Answer}
    (h : o.Performs c answer o') :
    (∃ clock draws m i, c = .handle clock draws m i ∧ o'.store = o.store ∧
      answer.notices = replies o.policy (named o.store i) ⟨m, o.receipts + 1⟩ i) ∨
      ∀ n ∈ answer.notices, n.isAboutEvent = true := by
  have htold : c.message? = none → ∀ n ∈ answer.notices, n.isAboutEvent = true := by
    intro hnone n hn
    rcases h.tells.mem hn with habout | ⟨m, _, _, _, hmessage, -⟩
    · exact habout
    · cases hnone.symm.trans hmessage
  have hevent : ∀ {k : EventKind} {n : Notice}, n.kind? = some k →
      ∀ x ∈ [n], x.isAboutEvent = true := by
    intro k n hkind x hx
    rw [List.mem_singleton.1 hx, Notice.isAboutEvent, hkind]
    rfl
  cases h with
  | heard h =>
    cases h with
    | failed _ _ =>
      refine .inr fun n hn => ?_
      cases hn
    | replied hnotices _ => exact .inl ⟨_, _, _, _, rfl, rfl, hnotices⟩
    | requested _ _ _ _ =>
      exact .inr (hevent (Notice.kind?_ofEventIn (k := .approvalRequested) rfl ..))
    | denied _ _ _ _ _ _ => exact .inr (hevent (Notice.kind?_ofEventIn (k := .denied) rfl ..))
    | approved _ _ _ _ _ _ _ =>
      exact .inr (hevent (Notice.kind?_ofEventIn (k := .dispatched) rfl ..))
  | reported hreport _ => exact .inr (htold (Call.message?_of_report? hreport))
  | swept _ => exact .inr (htold rfl)

inductive RepliedAfter (policy : Policy) (before : List Call) : Call × Notice → Prop
  | intro {clock : Readings} {draws : Draws} {m : Inbound} {i : Intent} {n : Notice}
      (hn : n ∈ replies policy (named ((new policy).after before).store i)
        ⟨m, taken before + 1⟩ i) :
      RepliedAfter policy before (.handle clock draws m i, n)

variable {policy : Policy} {calls : List Call}

theorem replied_or_about (policy : Policy) (before : List Call) (c : Call) :
    ((((new policy).after before).perform c).2.store = ((new policy).after before).store ∧
      (((new policy).after before).perform c).1.notices.length ≤ 1 ∧
      ∀ n ∈ (((new policy).after before).perform c).1.notices, RepliedAfter policy before (c, n)) ∨
      ∀ n ∈ (((new policy).after before).perform c).1.notices, n.isAboutEvent = true := by
  have hperforms := perform_performs (after_regular policy before) c
  rcases hperforms.replied_or_about with ⟨clock, draws, m, i, rfl, hstore, hnotices⟩ | habout
  · rw [after_policy, after_receipts] at hnotices
    refine .inl ⟨hstore, by rw [hnotices]; exact length_replies_le _, fun n hn => ?_⟩
    rw [hnotices] at hn
    exact .intro hn
  · exact .inr habout

/-- A notice that is not about an event was returned as a reply. -/
theorem mem_sent_reply {p : Call × Notice} (hp : p ∈ (new policy).sent calls)
    (hreply : p.2.isAboutEvent = false) :
    ∃ before after, calls = before ++ p.1 :: after ∧ RepliedAfter policy before p := by
  obtain ⟨before, after, hcalls, hn⟩ := mem_sent hp
  rcases replied_or_about policy before p.1 with ⟨-, -, hreplied⟩ | habout
  · exact ⟨before, after, hcalls, hreplied p.2 hn⟩
  · cases hreply.symm.trans (habout p.2 hn)

def Call.Unmarked (c : Call) : Prop := ∃ m, c.message? = some m ∧ m.providerId = none

/-- A reply to a message without an identifier has a key of its own, since no other message
was given its receipt number. -/
theorem RepliedAfter.key_ne {before before' : List Call} {a b : Call × Notice}
    (ha : RepliedAfter policy before a) (hb : RepliedAfter policy before' b)
    (hlt : taken before < taken before')
    (hunmarked : a.1.Unmarked ∨ b.1.Unmarked) : a.2.key ≠ b.2.key := by
  intro hkey
  cases ha with
  | @intro _ _ m _ n hn =>
    cases hb with
    | @intro _ _ m' _ n' hn' =>
      have hreply := mem_replies hn
      have hreply' := mem_replies hn'
      have hnone : m.providerId = none ∧ m'.providerId = none := by
        rcases hunmarked with ⟨x, hx, hnone⟩ | ⟨x, hx, hnone⟩
        · cases hx
          have heven := hreply.unmarked_iff.1 hnone
          rw [hkey] at heven
          exact ⟨hnone, hreply'.unmarked_iff.2 heven⟩
        · cases hx
          have heven := hreply'.unmarked_iff.1 hnone
          rw [← hkey] at heven
          exact ⟨hreply.unmarked_iff.2 heven, hnone⟩
      have hlast := hreply.getLast?_parts hnone.1
      rw [hkey, hreply'.getLast?_parts hnone.2] at hlast
      have hreceipt : taken before' + 1 = taken before + 1 :=
        Text.toString_inj.1 ((String.append_right_inj "receipt-").1 (Option.some.inj hlast))
      omega

theorem pairwise_of_length_le {α : Type} {l : List α} {R : α → α → Prop} (h : l.length ≤ 1) :
    l.Pairwise R := by
  refine List.pairwise_of_forall_sublist fun {a b} hab => ?_
  have htwo : 2 ≤ l.length := hab.length_le
  omega

theorem replies_pairwise (policy : Policy) (calls : List Call) :
    ((new policy).sent calls).Pairwise fun a b => a.2.isAboutEvent = false →
      b.2.isAboutEvent = false → a.1.Unmarked ∨ b.1.Unmarked → a.2.key ≠ b.2.key := by
  -- the calls are added at the end, and a reply is compared with those to earlier messages
  induction calls using List.reverseRecOn with
  | nil => exact .nil
  | append_singleton calls c ih =>
    rw [sent_concat, List.pairwise_append, List.pairwise_map]
    rcases replied_or_about policy calls c with ⟨-, hlength, hreplied⟩ | habout
    · refine ⟨ih, pairwise_of_length_le hlength, fun a ha b hb hreply _ => ?_⟩
      obtain ⟨n, hn, rfl⟩ := List.mem_map.1 hb
      obtain ⟨before, after, rfl, hbefore⟩ := mem_sent_reply ha hreply
      -- the message of the one is among those that were taken before the other
      refine hbefore.key_ne (hreplied n hn) ?_
      have hmessage : a.1.message?.isSome = true := by
        cases hbefore
        rfl
      exact taken_lt hmessage
    · refine ⟨ih, List.pairwise_of_forall_mem_list fun n hn _ _ hreply => ?_,
        fun a _ b hb _ hreply => ?_⟩
      · cases hreply.symm.trans (habout n hn)
      · obtain ⟨n, hn, rfl⟩ := List.mem_map.1 hb
        cases hreply.symm.trans (habout n hn)

/-! ## Logs -/

/-- What holds of a record when it is created and is preserved by appending holds of every
record. -/
theorem after_records {P : RunRecord → Prop} (policy : Policy) (calls : List Call)
    (hnew : ∀ c ∈ calls, ∀ m jobKey id time, c.message? = some m →
      P (RunRecord.create ((RunRequest.ofMessage m jobKey).named id) time))
    (happend : ∀ {r r' kind actor payload time e},
      RunRecord.append r kind actor payload time = .ok (e, r') → P r → P r')
    {run : String} {r : RunRecord} (hfind : ((new policy).after calls).store.find? run = some r) :
    P r := by
  induction calls using List.reverseRecOn generalizing r with
  | nil => cases hfind
  | append_singleton calls c ih =>
    have hbefore : ∀ {x}, ((new policy).after calls).store.find? run = some x → P x :=
      fun hx => ih (fun c hc => hnew c (List.mem_append_left _ hc)) hx
    rw [after_concat] at hfind
    rcases (perform_effect _ c).2.store with ⟨hmoved, -⟩ | ⟨clock, draws, m, i, rfl, hhandled⟩
    · obtain ⟨x, hx, hlater⟩ := hmoved.before hfind
      exact hlater.preserves (fun _ => happend) (hbefore hx)
    · rcases hhandled.before hfind with ⟨x, hx, hlater⟩ | ⟨-, -, jobKey, -, hcomposed⟩
      · exact hlater.preserves (fun _ => happend) (hbefore hx)
      · obtain ⟨id, created, requested, e, hcreated⟩ := hcomposed
        exact happend hcreated
          (hnew _ (List.mem_append_right _ (List.mem_singleton_self _)) m jobKey id created rfl)

theorem after_numbered (policy : Policy) (calls : List Call) {run : String} {r : RunRecord}
    (hfind : ((new policy).after calls).store.find? run = some r) : r.Numbered :=
  after_records policy calls (fun _ _ _ _ _ _ _ => RunRecord.Numbered.create _ _)
    (fun happend hr => hr.append happend) hfind

def log (o : Orchestrator) (run : String) : Option (List Event) :=
  (o.store.find? run).map (·.events)

/-- Records of a run that were read at two moments are the same when their logs are equally
long. -/
theorem eq_of_lastSeq {policy : Policy} {before after before' after' : List Call}
    (hcalls : before ++ after = before' ++ after') {run : String} {x x' : RunRecord}
    (hx : ((new policy).after before).store.find? run = some x)
    (hx' : ((new policy).after before').store.find? run = some x')
    (hseq : x.lastSeq = x'.lastSeq) : x = x' := by
  -- both have become the record at the end
  obtain ⟨r, hr, hlater⟩ := after_grows _ after hx
  obtain ⟨r', hr', hlater'⟩ := after_grows _ after' hx'
  rw [← after_append, hcalls, after_append, hr'] at hr
  cases hr
  have hlength := (after_numbered policy before hx).lastSeq
  rw [hseq, (after_numbered policy before' hx').lastSeq] at hlength
  exact hlater.unique hlater' (after_regular policy before hx).faithful
    (after_regular policy before' hx').faithful hlength.symm

theorem find?_of_log {policy : Policy} {before after : List Call} {run : String}
    (hlog : ((new policy).after (before ++ after)).log run =
      ((new policy).after before).log run) :
    ((new policy).after (before ++ after)).store.find? run =
      ((new policy).after before).store.find? run := by
  rw [log, log] at hlog
  cases hfind : ((new policy).after before).store.find? run with
  | none =>
    rw [hfind] at hlog
    exact Option.map_eq_none_iff.1 hlog
  | some x =>
    rw [hfind] at hlog
    obtain ⟨x', hfind', hevents⟩ := Option.map_eq_some_iff.1 hlog
    have hseq : x.lastSeq = x'.lastSeq := by rw [RunRecord.lastSeq, RunRecord.lastSeq, hevents]
    have hcalls : before ++ after = before ++ after ++ [] := (List.append_nil _).symm
    rw [hfind', eq_of_lastSeq hcalls hfind hfind' hseq]

theorem named_eq_some {s : RunStore} {i : Intent} {r : RunRecord} (h : named s i = some r) :
    ∃ run, i.run = some run ∧ s.find? run = some r := Option.bind_eq_some_iff.1 h

/-- A message that was replied to, and that comes again before anything has happened to the
run that it names, gets the reply once more. -/
theorem replied_again {policy : Policy} {before between : List Call} {c c' : Call} {m : Inbound}
    {id : String} {n : Notice} (hid : m.providerId = some id) (hc : c.message? = some m)
    (hc' : c'.message? = some m)
    (hparsed : ∀ clock draws m i, .handle clock draws m i ∈ [c, c'] → i = Intent.parse m.body)
    (hn : n ∈ (((new policy).after before).perform c).1.notices) (hreply : n.isAboutEvent = false)
    (hlog : ∀ run, c.run? = some run → ((new policy).after (before ++ [c] ++ between)).log run =
      ((new policy).after (before ++ [c])).log run) :
    (((new policy).after (before ++ [c] ++ between)).perform c').1.notices = [n] := by
  rcases replied_or_about policy before c with ⟨hstore, -, hreplied⟩ | habout
  · have hfirst := hreplied n hn
    cases hfirst with
    | @intro clock draws m₀ i n hn =>
      cases hc
      cases c' with
      | handle clock' draws' m' i' =>
        cases hc'
        cases (hparsed clock draws m i (by simp)).trans (hparsed clock' draws' m i' (by simp)).symm
        refine handle_again (after_regular policy _) hid (by rwa [after_policy])
          (fun hkind run hrun => ?_) clock' draws'
        rw [find?_of_log (hlog run ((if_neg hkind).trans hrun)), after_concat, hstore]
      | _ => cases hc'
  · cases hreply.symm.trans (habout n hn)

end Orchestrator
end JobGate
