/-
Notices are told apart by their keys.

Whoever delivers the notices drops one whose key it has seen, so two notices that are to be
delivered both may not have one key.  Of two notices about events the one is about another
run, or about an event with another number.  The purpose tells a notice about an event from
a reply, and two replies that have one key are the same.

All this is about the parts of keys.  It is about their bytes too, as long as no channel
delivers a NUL (`Delivered.plain`).
-/
import JobGate.Proofs.Orchestrator.Replies
import Mathlib.Data.List.Pairwise

namespace JobGate
namespace Orchestrator

/-! ## Notices about events -/

section

variable {α β : Type} {R : α → β → Prop} {as : List α} {bs : List β}

theorem exists_of_forall₂ (h : List.Forall₂ R as bs) {a : α} (ha : a ∈ as) : ∃ b ∈ bs, R a b := by
  induction h with
  | nil => cases ha
  | cons hfirst _ ih =>
    rcases List.mem_cons.1 ha with rfl | ha
    · exact ⟨_, List.mem_cons_self, hfirst⟩
    · obtain ⟨b, hb, hab⟩ := ih ha
      exact ⟨b, List.mem_cons_of_mem _ hb, hab⟩

theorem pairwise_of_forall₂ {S : β → β → Prop} {T : α → α → Prop} (h : List.Forall₂ R as bs)
    (hbs : bs.Pairwise S) (hT : ∀ {a a' b b'}, R a b → R a' b' → S b b' → T a a') :
    as.Pairwise T := by
  induction h with
  | nil => exact .nil
  | cons hfirst hrest ih =>
    rw [List.pairwise_cons] at hbs
    refine .cons (fun a' ha' => ?_) (ih hbs.2)
    obtain ⟨b', hb', hab'⟩ := exists_of_forall₂ hrest ha'
    exact hT hfirst hab' (hbs.1 b' hb')

end

namespace Announces

variable {run run' : Run} {c c' : Call} {n n' : Notice} {e e' : Event}

theorem key_inj (h : Announces run c n e) (h' : Announces run' c' n' e') (hkey : n.key = n'.key) :
    run.id.text = run'.id.text ∧ e.seq = e'.seq := by
  obtain ⟨purpose, -, hparts⟩ := h.key
  obtain ⟨purpose', -, hparts'⟩ := h'.key
  rw [hparts, hparts'] at hkey
  simp only [Key.mk.injEq, List.cons.injEq] at hkey
  exact ⟨hkey.2.1, Text.toString_inj.1 hkey.2.2.1⟩

theorem isPlain (h : Announces run c n e) (hchannel : Text.IsPlain run.channel)
    (hconversation : Text.IsPlain run.conversation)
    (hc : ∀ m, c.message? = some m → m.IsPlain) : n.key.IsPlain := by
  have hplace : Text.IsPlain n.channel ∧ Text.IsPlain n.conversation := by
    have hplace := h.place
    split at hplace
    · obtain ⟨m, hm, hchannel, hconversation⟩ := hplace
      rw [hchannel, hconversation]
      exact ⟨(hc m hm).fields .channel, (hc m hm).fields .conversation⟩
    · rw [hplace.1, hplace.2]
      exact ⟨hchannel, hconversation⟩
  obtain ⟨purpose, hpurpose, hkey⟩ := h.key
  rw [hkey]
  refine ⟨List.cons_ne_nil _ _, ?_⟩
  simp only [List.forall_mem_cons, List.not_mem_nil, false_implies, implies_true, and_true]
  exact ⟨EventKind.isPlain_purpose hpurpose, run.id.isPlain, Text.isPlain_toString _, hplace⟩

end Announces

namespace Told

variable {s : RunStore} {sent : List (Call × Notice)}

/-- A notice about an event is about one that is in a log. -/
theorem announces (h : Told s sent) {p : Call × Notice} (hp : p ∈ sent)
    (habout : p.2.isAboutEvent = true) : ∃ run r, s.find? run = some r ∧ p ∈ about run sent ∧
      ∃ e ∈ r.events, Announces r.run p.1 p.2 e := by
  obtain ⟨run, r, hfind, hcorrelation⟩ := h.known p hp habout
  have hmem : p ∈ about run sent := mem_about.2 ⟨hp, habout, hcorrelation⟩
  obtain ⟨e, he, hannounces⟩ := exists_of_forall₂ (h.log hfind) hmem
  exact ⟨run, r, hfind, hmem, e, (List.mem_filter.1 he).1, hannounces⟩

theorem about_pairwise (h : Told s sent) {run : String} {r : RunRecord}
    (hfind : s.find? run = some r) (hr : r.Numbered) :
    (about run sent).Pairwise fun a b => a.2.key ≠ b.2.key := by
  have hseq : (r.events.filter (·.kind.isTold)).Pairwise fun e e' => e.seq ≠ e'.seq :=
    (List.pairwise_map.1 hr.nodup).filter _
  exact pairwise_of_forall₂ (h.log hfind) hseq fun hannounces hannounces' hne hkey =>
    hne (hannounces.key_inj hannounces' hkey).2

theorem pairwise (h : Told s sent) (hs : ∀ ⦃run r⦄, s.find? run = some r → r.Numbered) :
    sent.Pairwise fun a b => a.2.isAboutEvent = true → b.2.isAboutEvent = true →
      a.2.key ≠ b.2.key := by
  refine List.pairwise_of_forall_sublist fun {a b} hab ha hb hkey => ?_
  obtain ⟨run, r, hfind, hmem, e, -, hannounces⟩ := h.announces (hab.subset (by simp)) ha
  obtain ⟨run', r', hfind', hmem', e', -, hannounces'⟩ := h.announces (hab.subset (by simp)) hb
  -- the key holds the run, and about one run there are no two
  have hrun := (hannounces.key_inj hannounces' hkey).1
  rw [RunStore.text_of_find? hfind, RunStore.text_of_find? hfind'] at hrun
  subst hrun
  have hpair : List.Sublist [a, b] (about run sent) := by
    have hself : about run [a, b] = [a, b] := by
      refine List.filter_eq_self.2 fun p hp => ?_
      rcases List.mem_pair.1 hp with rfl | rfl
      · exact (List.mem_filter.1 hmem).2
      · exact (List.mem_filter.1 hmem').2
    exact hself ▸ hab.filter _
  exact (h.about_pairwise hfind (hs hfind)).forall_sublist hpair hkey

end Told

/-! ## Deliveries -/

/-- Messages as channels deliver them: the intent is read from the body, no field holds a
NUL, and a message that comes again, by its identifier, comes with the same body. -/
structure Delivered (calls : List Call) : Prop where
  parsed : ∀ clock draws m i, .handle clock draws m i ∈ calls → i = Intent.parse m.body
  plain : ∀ c ∈ calls, ∀ m, c.message? = some m → m.IsPlain
  same : ∀ c ∈ calls, ∀ c' ∈ calls, ∀ m m' id, c.message? = some m → c'.message? = some m' →
    m.providerId = some id → m'.providerId = some id → m.channel = m'.channel →
    m.conversation = m'.conversation → m.sender = m'.sender → m.body = m'.body

namespace Delivered

variable {policy : Policy} {calls : List Call}

theorem run_plain (h : Delivered calls) {run : String} {r : RunRecord}
    (hfind : ((new policy).after calls).store.find? run = some r) :
    Text.IsPlain r.run.channel ∧ Text.IsPlain r.run.conversation := by
  refine after_records (P := fun r => Text.IsPlain r.run.channel ∧ Text.IsPlain r.run.conversation)
    policy calls (fun c hc m _ _ _ hm => ?_) (fun happend hr => ?_) hfind
  · have hplain := h.plain c hc m hm
    exact ⟨hplain.fields .channel, hplain.fields .conversation⟩
  · rw [RunRecord.append_run happend]
    exact hr

theorem isPlain (h : Delivered calls) {p : Call × Notice} (hp : p ∈ (new policy).sent calls) :
    p.2.key.IsPlain := by
  obtain ⟨_, _, hcalls, -⟩ := mem_sent hp
  have hcall : p.1 ∈ calls := hcalls ▸ List.mem_append_right _ List.mem_cons_self
  cases habout : p.2.isAboutEvent with
  | true =>
    obtain ⟨run, r, hfind, -, e, -, hannounces⟩ := (after_told policy calls).announces hp habout
    have hplain := h.run_plain hfind
    exact hannounces.isPlain hplain.1 hplain.2 (h.plain _ hcall)
  | false =>
    obtain ⟨_, _, -, hreplied⟩ := mem_sent_reply hp habout
    cases hreplied with
    | intro hn => exact (mem_replies hn).isPlain (h.plain _ hcall _ rfl)

/-- A message is known by where it came from and by its identifier. -/
theorem message_eq (h : Delivered calls) {c c' : Call} {m m' : Inbound} {id : String}
    (hc : c ∈ calls) (hc' : c' ∈ calls) (hm : c.message? = some m) (hm' : c'.message? = some m')
    (hid : m.providerId = some id) (hid' : m'.providerId = some id)
    (hchannel : m.channel = m'.channel) (hconversation : m.conversation = m'.conversation)
    (hsender : m.sender = m'.sender) : m = m' := by
  have hbody := h.same c hc c' hc' m m' id hm hm' hid hid' hchannel hconversation hsender
  cases m
  cases m'
  simp only [Inbound.mk.injEq]
  exact ⟨hchannel, hsender, hconversation, hbody, hid.trans hid'.symm⟩

/-- Two replies with one key reply to one message by one record. -/
theorem reply_eq (h : Delivered calls) {a b : Call × Notice} (ha : a ∈ (new policy).sent calls)
    (hb : b ∈ (new policy).sent calls) (hreply : a.2.isAboutEvent = false)
    (hreply' : b.2.isAboutEvent = false) (hmarked : ¬ a.1.Unmarked) (hmarked' : ¬ b.1.Unmarked)
    (hkey : a.2.key = b.2.key) : a.2 = b.2 := by
  obtain ⟨before, after, hcalls, hreplied⟩ := mem_sent_reply ha hreply
  obtain ⟨before', after', hcalls', hreplied'⟩ := mem_sent_reply hb hreply'
  have hcall : a.1 ∈ calls := hcalls ▸ List.mem_append_right _ List.mem_cons_self
  have hcall' : b.1 ∈ calls := hcalls' ▸ List.mem_append_right _ List.mem_cons_self
  cases hreplied with
  | @intro _ _ m i n hn =>
    cases hreplied' with
    | @intro _ _ m' i' n' hn' =>
      obtain ⟨id, hid⟩ : ∃ id, m.providerId = some id :=
        Option.ne_none_iff_exists'.1 fun hnone => hmarked ⟨m, rfl, hnone⟩
      obtain ⟨id', hid'⟩ : ∃ id, m'.providerId = some id :=
        Option.ne_none_iff_exists'.1 fun hnone => hmarked' ⟨m', rfl, hnone⟩
      obtain ⟨hchannel, hconversation, hsender, hsource⟩ :=
        (mem_replies hn).message_eq (mem_replies hn') hkey
      have hsame : id = id' := by
        simpa only [Inbound.source, hid, hid', Option.getD_some] using hsource
      subst hsame
      cases h.message_eq hcall hcall' rfl rfl hid hid' hchannel hconversation hsender
      cases (h.parsed _ _ _ _ hcall).trans (h.parsed _ _ _ _ hcall').symm
      -- the receipt numbers differ, but neither reply depends on its own
      rw [← replies_receipt (d := ⟨m, _⟩) hid (taken before + 1)] at hn'
      refine replies_unique hn hn' hkey fun x x' hx hx' hseq => ?_
      obtain ⟨run, hrun, hfind⟩ := named_eq_some hx
      obtain ⟨run', hrun', hfind'⟩ := named_eq_some hx'
      cases hrun.symm.trans hrun'
      exact eq_of_lastSeq (hcalls.symm.trans hcalls') hfind hfind' hseq

end Delivered

/-! ## All notices -/

/-- A notice that no other has the key of: one about an event, or a reply to a message
without an identifier. -/
def Sole (p : Call × Notice) : Prop := p.2.isAboutEvent = true ∨ p.1.Unmarked

theorem sent_pairwise (policy : Policy) (calls : List Call) :
    ((new policy).sent calls).Pairwise fun a b => Sole a ∨ Sole b → a.2.key ≠ b.2.key := by
  have hnumbered : ∀ ⦃run r⦄, ((new policy).after calls).store.find? run = some r → r.Numbered :=
    fun _ _ hfind => after_numbered policy calls hfind
  have habout := (after_told policy calls).pairwise hnumbered
  refine ((replies_pairwise policy calls).and habout).imp fun {a b} hab hsole hkey => ?_
  obtain ⟨hreplies, habouts⟩ := hab
  have hkind : b.2.isAboutEvent = a.2.isAboutEvent := by
    rw [Notice.isAboutEvent, Notice.isAboutEvent, Notice.kind?, Notice.kind?, hkey]
  cases ha : a.2.isAboutEvent with
  | true => exact habouts ha (hkind.trans ha) hkey
  | false =>
    have hb := hkind.trans ha
    refine hreplies ha hb ?_ hkey
    rcases hsole with (habout | hunmarked) | (habout | hunmarked)
    · cases ha.symm.trans habout
    · exact .inl hunmarked
    · cases hb.symm.trans habout
    · exact .inr hunmarked

/-- Whatever was called for, as long as messages are delivered as they should be: notices
with keys of the same bytes are delivered as the same; a notice about an event, or a reply
to a message without an identifier, shares its key with no other; and a message with an
identifier that was replied to, and comes again before anything has happened to the run
that it names, gets that reply once more. -/
theorem keys_distinguish (policy : Policy) (calls : List Call) (h : Delivered calls) :
    (∀ a ∈ (new policy).sent calls, ∀ b ∈ (new policy).sent calls,
      a.2.key.bytes = b.2.key.bytes → a.2.outbound = b.2.outbound) ∧
    ((new policy).sent calls).Pairwise
      (fun a b => Sole a ∨ Sole b → a.2.key.bytes ≠ b.2.key.bytes) ∧
    ∀ before c between c' after m id n, calls = before ++ [c] ++ between ++ c' :: after →
      c.message? = some m → c'.message? = some m → m.providerId = some id →
      n ∈ (((new policy).after before).perform c).1.notices → n.isAboutEvent = false →
      (∀ run, c.run? = some run → ((new policy).after (before ++ [c] ++ between)).log run =
        ((new policy).after (before ++ [c])).log run) →
      (((new policy).after (before ++ [c] ++ between)).perform c').1.notices = [n] := by
  have hsole : ((new policy).sent calls).Pairwise
      fun a b => Sole a ∨ Sole b → a.2.key.bytes ≠ b.2.key.bytes := by
    refine (sent_pairwise policy calls).imp_of_mem fun {a b} ha hb hne hsole hbytes => ?_
    exact hne hsole ((Key.bytes_inj (h.isPlain ha) (h.isPlain hb)).1 hbytes)
  refine ⟨fun a ha b hb hbytes => ?_, hsole, ?_⟩
  · by_cases hone : Sole a ∨ Sole b
    · have hsymm : Std.Symm fun a b : Call × Notice =>
          Sole a ∨ Sole b → a.2.key.bytes ≠ b.2.key.bytes :=
        ⟨fun _ _ hne hone hbytes => hne hone.symm hbytes.symm⟩
      by_cases hab : a = b
      · rw [hab]
      · exact absurd hbytes (hsole.forall ha hb hab hone)
    · simp only [Sole, not_or, Bool.not_eq_true] at hone
      obtain ⟨⟨hreply, hmarked⟩, hreply', hmarked'⟩ := hone
      have hkey := (Key.bytes_inj (h.isPlain ha) (h.isPlain hb)).1 hbytes
      rw [h.reply_eq ha hb hreply hreply' hmarked hmarked' hkey]
  · intro before c between c' after m id n hcalls hc hc' hid hn hreply hlog
    refine replied_again hid hc hc' (fun clock draws m i hmem => ?_) hn hreply hlog
    refine h.parsed clock draws m i ?_
    rw [hcalls]
    rcases List.mem_pair.1 hmem with heq | heq
    · simp only [heq, List.mem_append, List.mem_singleton, true_or, or_true]
    · simp only [heq, List.mem_append, List.mem_cons, true_or, or_true]

/-- A question about a run, twice before the run is asked for and twice after that, and two
messages that are not understood. -/
def questions : List (String × Option String) :=
  [("status run-0-0000", some "m1"), ("status run-0-0000", some "m1"), ("run backup", none),
    ("status run-0-0000", some "m1"), ("status run-0-0000", some "m1"), ("help", none),
    ("help", none)]

def asked : List Call :=
  questions.map fun (body, id) =>
    .handle default (.ofList [some 0]) ⟨"chat", "ann", "ops", body, id⟩ (.parse body)

theorem delivered_asked : Delivered asked := by
  constructor
  case parsed =>
    intro clock draws m i hc
    obtain ⟨q, -, heq⟩ := List.mem_map.1 hc
    cases heq
    rfl
  case plain =>
    intro c hc m hm
    obtain ⟨q, hq, rfl⟩ := List.mem_map.1 hc
    cases hm
    have hplain : ∀ q ∈ questions, Text.IsPlain q.1 ∧ ∀ id ∈ q.2, Text.IsPlain id := by decide
    refine ⟨fun f => ?_, fun id hid => (hplain q hq).2 id hid⟩
    cases f with
    | channel => exact (by decide : Text.IsPlain "chat")
    | sender => exact (by decide : Text.IsPlain "ann")
    | conversation => exact (by decide : Text.IsPlain "ops")
    | body => exact (hplain q hq).1
  case same =>
    intro c hc c' hc' m m' id hm hm' hid hid' _ _ _
    obtain ⟨q, hq, rfl⟩ := List.mem_map.1 hc
    obtain ⟨q', hq', rfl⟩ := List.mem_map.1 hc'
    cases hm
    cases hm'
    have hsame : ∀ q ∈ questions, ∀ q' ∈ questions,
        q.2.isSome = true → q.2 = q'.2 → q.1 = q'.1 := by
      decide
    exact hsame q hq q' hq' (Option.isSome_of_mem hid) (hid.trans hid'.symm)

/-- The question is answered by one message until the run is known, and by one other
after that. -/
theorem keys_distinguish_asked :
    Delivered asked ∧ ((new .requesterOnly).sent asked).length = 7 ∧
      (((new .requesterOnly).sent asked).map (·.2.key)).eraseDups.length = 5 ∧
      (∀ a ∈ (new .requesterOnly).sent asked, ∀ b ∈ (new .requesterOnly).sent asked,
        a.2.key.bytes = b.2.key.bytes → a.2.outbound = b.2.outbound) ∧
      ((new .requesterOnly).sent asked).Pairwise
        (fun a b => Sole a ∨ Sole b → a.2.key.bytes ≠ b.2.key.bytes) := by
  obtain ⟨hsame, hsole, -⟩ := keys_distinguish .requesterOnly asked delivered_asked
  exact ⟨delivered_asked, rfl, rfl, hsame, hsole⟩

end Orchestrator
end JobGate
