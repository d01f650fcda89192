/-
Runs that are created, one at a time and several at once.

A creation on its own ends with the first draw that fails or makes a free identifier, or gives
up after sixteen identifiers that are taken; `Creation.Searched` lists the ends.  Several
creations may look and add in any order, and `Race` is their common state.  Two of them may
then find the same identifier free.  A record is only added when its identifier is free at that
moment, so the second one draws again: `Race.Adds` keeps the list of the records that were
added, each with the number of its creation, and every step of the race preserves it.
-/
import JobGate.Proofs.Orchestrator.Handled
import JobGate.Proofs.Run.Identifier
import Mathlib.Data.Fintype.Card

namespace JobGate

namespace Draws

def skip (d : Draws) (n : Nat) : Draws := { d with taken := d.taken + n }

theorem skip_skip (d : Draws) (a b : Nat) : (d.skip a).skip b = d.skip (b + a) := by
  unfold skip
  congr 1
  show d.taken + a + b = d.taken + (b + a)
  omega

end Draws

namespace RunStore

variable {s : RunStore} {r : RunRecord}

/-- The identifiers that the next draws make for a second are all taken. -/
def TakesNext (s : RunStore) (seconds : Nat) (draws : Draws) (n : Nat) : Prop :=
  ∀ j < n, ∃ x, draws.stream (draws.taken + j) = some x ∧
    s.contains (RunId.compose seconds x) = true

theorem TakesNext.cons {seconds n x : Nat} {draws : Draws}
    (hdraw : draws.stream draws.taken = some x)
    (htaken : s.contains (RunId.compose seconds x) = true)
    (h : s.TakesNext seconds (draws.skip 1) n) : s.TakesNext seconds draws (n + 1) := by
  intro j hj
  cases j with
  | zero => exact ⟨x, hdraw, htaken⟩
  | succ j =>
    have hnext := h j (by omega)
    have hindex : draws.taken + 1 + j = draws.taken + (j + 1) := by omega
    unfold Draws.skip at hnext
    rwa [hindex] at hnext

theorem insert?_of_free (h : s.contains r.run.id.text = false) : ∃ t, s.insert? r = some t := by
  unfold insert?
  split
  · rename_i x hfind
    rw [contains, hfind] at h
    cases h
  · exact ⟨_, rfl⟩

end RunStore

namespace RunRequest

def waiting (q : RunRequest) (id : RunId) (created : Instant) : Run :=
  { id
    jobKey := q.jobKey
    status := .awaitingApproval
    createdAt := created
    requestedBy := q.requestedBy
    channel := q.channel
    conversation := q.conversation }

theorem run_of_append {q : RunRequest} {id : RunId} {created requested : Instant} {r : RunRecord}
    {e : Event} (happend : (RunRecord.create (q.named id) created).append .approvalRequested
      Orchestrator.actor [] requested = .ok (e, r)) : r.run = q.waiting id created := by
  have hstatus : r.run.status = .awaitingApproval :=
    (Option.some.inj (RunRecord.append_apply happend)).symm
  rw [RunRecord.append_run happend, hstatus]
  rfl

end RunRequest

namespace Creation

variable {q : RunRequest} {clock : Readings} {s : RunStore} {draws : Draws} {seconds left : Nat}

/-! ## One creation -/

/-- How a creation ends that may draw so many more times. -/
inductive Searched (q : RunRequest) (clock : Readings) (s : RunStore) (draws : Draws)
    (left : Nat) : Except OrchestratorError (RunId × Notice) × RunStore × Draws → Prop
  /-- The clock stands before 1970. -/
  | early (hearly : (clock 0).seconds < 0) :
      Searched q clock s draws left (.error (.noIdentifier .negativeTime), s, draws)
  /-- A draw fails, and what was drawn before is taken. -/
  | silent {seconds n : Nat} (hclock : (clock 0).seconds = seconds) (hn : n < left)
      (htaken : s.TakesNext seconds draws n) (hdraw : draws.stream (draws.taken + n) = none) :
      Searched q clock s draws left
        (.error (.noIdentifier .noRandomness), s, draws.skip (n + 1))
  /-- All that was drawn is taken. -/
  | exhausted {seconds : Nat} (hclock : (clock 0).seconds = seconds)
      (htaken : s.TakesNext seconds draws left) :
      Searched q clock s draws left (.error (.allTaken maxDraws), s, draws.skip left)
  /-- A draw makes an identifier that is free, and what was drawn before is taken. -/
  | fresh {seconds n x : Nat} {r : RunRecord} {e : Event} {s' : RunStore}
      (hclock : (clock 0).seconds = seconds) (hn : n < left)
      (htaken : s.TakesNext seconds draws n) (hdraw : draws.stream (draws.taken + n) = some x)
      (hfree : s.contains (RunId.compose seconds x) = false)
      (happend : (RunRecord.create (q.named (RunId.drawn seconds x)) (clock 0)).append
        .approvalRequested Orchestrator.actor [] (clock 1) = .ok (e, r))
      (hrun : r.run = q.waiting (RunId.drawn seconds x) (clock 0))
      (hrecords : s'.records = s.records ++ [r]) :
      Searched q clock s draws left
        (.ok (RunId.drawn seconds x, approvalNotice r.run e), s', draws.skip (n + 1))

theorem Searched.of_taken {x : Nat}
    {end_ : Except OrchestratorError (RunId × Notice) × RunStore × Draws}
    (hclock : (clock 0).seconds = seconds) (hdraw : draws.stream draws.taken = some x)
    (htaken : s.contains (RunId.compose seconds x) = true)
    (h : Searched q clock s (draws.skip 1) left end_) :
    Searched q clock s draws (left + 1) end_ := by
  have hsame : ∀ {other : Nat}, (clock 0).seconds = other → other = seconds := by
    intro other hother
    omega
  have hindex : ∀ n, draws.taken + 1 + n = draws.taken + (n + 1) := by
    intro n
    omega
  cases h with
  | early hearly => omega
  | silent hclock' hn hbefore hfail =>
    cases hsame hclock'
    rw [Draws.skip_skip]
    rw [Draws.skip, hindex] at hfail
    exact .silent hclock (by omega) (.cons hdraw htaken hbefore) hfail
  | exhausted hclock' hbefore =>
    cases hsame hclock'
    rw [Draws.skip_skip]
    exact .exhausted hclock (.cons hdraw htaken hbefore)
  | fresh hclock' hn hbefore hnext hfree happend hrun hrecords =>
    cases hsame hclock'
    rw [Draws.skip_skip]
    rw [Draws.skip, hindex] at hnext
    exact .fresh hclock (by omega) (.cons hdraw htaken hbefore) hnext hfree happend hrun hrecords

theorem run_done (steps : Nat) (result : Except OrchestratorError (RunId × Notice)) :
    run q clock steps (.done result) s draws = (result, s, draws) := by
  cases steps <;> rfl

theorem run_searched (hclock : (clock 0).seconds = seconds) (left : Nat) {steps : Nat}
    (hsteps : left + 2 ≤ steps) (draws : Draws) :
    Searched q clock s draws left (run q clock steps (.drawing left) s draws) := by
  induction left generalizing steps draws with
  | zero =>
    obtain ⟨steps, rfl⟩ : ∃ k, steps = k + 1 := ⟨steps - 1, by omega⟩
    simp only [run, step, look, run_done]
    exact .exhausted hclock fun j hj => absurd hj (Nat.not_lt_zero j)
  | succ left ih =>
    obtain ⟨steps, rfl⟩ : ∃ k, steps = k + 2 := ⟨steps - 2, by omega⟩
    have hgenerate := RunId.generate_eq seconds draws
    rw [← hclock] at hgenerate
    cases hdraw : draws.stream draws.taken with
    | none =>
      rw [hdraw] at hgenerate
      simp only [run, step, look, hgenerate, run_done]
      exact .silent hclock (n := 0) (by omega) (fun j hj => absurd hj (Nat.not_lt_zero j)) hdraw
    | some x =>
      rw [hdraw] at hgenerate
      cases htaken : s.contains (RunId.compose seconds x) with
      | true =>
        have hcontains : s.contains (RunId.drawn seconds x).text = true := htaken
        simp only [run, step, look, hgenerate, hcontains, if_true]
        have hfewer : left + 2 ≤ steps + 1 := by omega
        exact .of_taken hclock hdraw htaken (ih hfewer (draws.skip 1))
      | false =>
        have hcontains : s.contains (RunId.drawn seconds x).text = false := htaken
        obtain ⟨r, e, happend, hcompose⟩ :=
          compose_eq q (RunId.drawn seconds x) (clock 0) (clock 1)
        have hrun := RunRequest.run_of_append happend
        have hid : r.run.id = RunId.drawn seconds x := by rw [hrun]; rfl
        obtain ⟨s', hinsert⟩ : ∃ s', s.insert? r = some s' :=
          RunStore.insert?_of_free (hid ▸ hcontains)
        simp only [run, step, look, add, hgenerate, hcontains, Bool.false_eq_true, if_false,
          hcompose, hinsert, run_done, hid]
        exact .fresh hclock (n := 0) (by omega) (fun j hj => absurd hj (Nat.not_lt_zero j)) hdraw
          htaken happend hrun (RunStore.records_insert? hinsert).2

theorem complete_searched (q : RunRequest) (clock : Readings) (s : RunStore) (draws : Draws) :
    Searched q clock s draws maxDraws (complete q clock s draws) := by
  rcases Int.lt_or_le (clock 0).seconds 0 with hearly | hlate
  · have hgenerate := RunId.generate_of_early hearly draws
    simp only [complete, run, step, look, maxDraws, hgenerate, run_done]
    exact .early hearly
  · obtain ⟨seconds, hseconds⟩ := Int.eq_ofNat_of_zero_le hlate
    exact run_searched hseconds maxDraws (by decide) draws

/-! ## Creations that take their steps in any order -/

def id? : Creation → Option RunId
  | done (.ok (id, _)) => some id
  | done (.error _) | drawing _ | adding _ _ _ => none

/-- What is about to be added is what the request asks for. -/
def Prepared (q : RunRequest) : Creation → Prop
  | adding _ record _ => q.Composed record
  | drawing _ | done _ => True

/-- What a step can do: the store stays as it is and nothing succeeds, or a record is added and
the creation ends with its identifier. -/
inductive Steps (q : RunRequest) (c : Creation) (s : RunStore) : Creation → RunStore → Prop
  | kept {c' : Creation} (hid : c'.id? = c.id?) (hprepared : c'.Prepared q) : Steps q c s c' s
  | added {r : RunRecord} {notice : Notice} {s' : RunStore} (hgoing : c.id? = none)
      (hnew : q.Composed r) (hinsert : s.insert? r = some s') :
      Steps q c s (.done (.ok (r.run.id, notice))) s'

theorem step_steps (clock : Readings) {c : Creation} (hc : c.Prepared q) (s : RunStore)
    (draws : Draws) : Steps q c s (c.step q clock s draws).1 (c.step q clock s draws).2.1 := by
  cases c with
  | done result => exact .kept rfl hc
  | drawing left =>
    have hsound := look_sound (q := q) clock left s draws
    show Steps q _ s (look q clock left s draws).1 s
    generalize (look q clock left s draws).1 = c' at hsound ⊢
    cases c' with
    | drawing left' => exact .kept rfl trivial
    | adding left' record notice =>
      obtain ⟨id, created, requested, e, happend, -⟩ := hsound
      exact .kept rfl ⟨id, created, requested, e, happend⟩
    | done result =>
      obtain ⟨e, rfl⟩ := hsound
      exact .kept rfl trivial
  | adding left record notice =>
    show Steps q _ s (add left record notice s).1 (add left record notice s).2
    unfold add
    cases hinsert : s.insert? record with
    | none => exact .kept rfl trivial
    | some s' => exact .added rfl hc hinsert

end Creation

/-- Creations that share a store and a source of random numbers, by number. -/
structure Race (n : Nat) where
  store : RunStore
  draws : Draws
  creations : Fin n → Creation

namespace Race

variable {n : Nat} {q : Fin n → RunRequest} {s : RunStore} {c : Race n}

def start (n : Nat) (s : RunStore) (draws : Draws) : Race n :=
  ⟨s, draws, fun _ => .drawing Creation.maxDraws⟩

def advance (c : Race n) (i : Fin n) (creation : Creation) (store : RunStore) (draws : Draws) :
    Race n :=
  ⟨store, draws, Function.update c.creations i creation⟩

def step (q : Fin n → RunRequest) (c : Race n) (t : Fin n × Readings) : Race n :=
  let (creation, store, draws) := (c.creations t.1).step (q t.1) t.2 c.store c.draws
  c.advance t.1 creation store draws

def run (q : Fin n → RunRequest) (c : Race n) (ts : List (Fin n × Readings)) : Race n :=
  ts.foldl (step q) c

def id? (c : Race n) (i : Fin n) : Option RunId := (c.creations i).id?

section
variable {i : Fin n} {creation : Creation} {store : RunStore} {draws : Draws}

theorem advance_id? (j : Fin n) : (c.advance i creation store draws).id? j =
    if j = i then creation.id? else c.id? j := by
  show (Function.update c.creations i creation j).id? = _
  by_cases hj : j = i
  · rw [if_pos hj, hj, Function.update_self]
  · rw [if_neg hj, Function.update_of_ne hj]
    rfl

theorem advance_prepared (hcreation : creation.Prepared (q i))
    (h : ∀ j, (c.creations j).Prepared (q j)) (j : Fin n) :
    ((c.advance i creation store draws).creations j).Prepared (q j) := by
  show (Function.update c.creations i creation j).Prepared (q j)
  by_cases hj : j = i
  · subst hj
    rwa [Function.update_self]
  · rw [Function.update_of_ne hj]
    exact h j

end

/-- The records that the creations have added to a store, each with the number of its
creation. -/
structure Adds (q : Fin n → RunRequest) (s : RunStore) (won : List (Fin n × RunRecord))
    (c : Race n) : Prop where
  records : c.store.records = s.records ++ won.map (·.2)
  numbers : (won.map (·.1)).Nodup
  ended : ∀ i id, c.id? i = some id ↔ ∃ r, (i, r) ∈ won ∧ r.run.id = id
  composed : ∀ x ∈ won, (q x.1).Composed x.2
  prepared : ∀ i, (c.creations i).Prepared (q i)

theorem start_adds (q : Fin n → RunRequest) (s : RunStore) (draws : Draws) :
    Adds q s [] (start n s draws) where
  records := (List.append_nil _).symm
  numbers := List.nodup_nil
  ended i id := by
    constructor
    · intro h
      cases h
    · rintro ⟨r, hr, -⟩
      cases hr
  composed x hx := by cases hx
  prepared _ := trivial

namespace Adds

variable {won : List (Fin n × RunRecord)} {i : Fin n} {draws : Draws}

theorem not_mem (h : Adds q s won c) (hgoing : c.id? i = none) (r : RunRecord) :
    (i, r) ∉ won := by
  intro hr
  have hsome := (h.ended i r.run.id).2 ⟨r, hr, rfl⟩
  rw [hgoing] at hsome
  cases hsome

theorem kept (h : Adds q s won c) {creation : Creation} (hid : creation.id? = c.id? i)
    (hprepared : creation.Prepared (q i)) :
    Adds q s won (c.advance i creation c.store draws) where
  records := h.records
  numbers := h.numbers
  ended j id := by
    have hsame : (c.advance i creation c.store draws).id? j = c.id? j := by
      rw [advance_id?]
      by_cases hj : j = i
      · rw [if_pos hj, hj, hid]
      · rw [if_neg hj]
    rw [hsame]
    exact h.ended j id
  composed := h.composed
  prepared := advance_prepared hprepared h.prepared

theorem added (h : Adds q s won c) {r : RunRecord} {notice : Notice} {store : RunStore}
    (hgoing : c.id? i = none) (hnew : (q i).Composed r)
    (hinsert : c.store.insert? r = some store) :
    Adds q s (won ++ [(i, r)])
      (c.advance i (.done (.ok (r.run.id, notice))) store draws) where
  records := by
    show store.records = _
    rw [(RunStore.records_insert? hinsert).2, h.records, List.map_append, List.append_assoc]
    rfl
  numbers := by
    rw [List.map_append, List.nodup_append]
    refine ⟨h.numbers, List.nodup_singleton i, ?_⟩
    rintro j hj k hk rfl
    obtain ⟨⟨_, r'⟩, hr', rfl⟩ := List.mem_map.1 hj
    rw [List.map_singleton, List.mem_singleton] at hk
    cases hk
    exact h.not_mem hgoing r' hr'
  ended j id := by
    rw [advance_id?]
    by_cases hj : j = i
    · subst hj
      rw [if_pos rfl]
      constructor
      · intro hid
        exact ⟨r, List.mem_append_right won List.mem_cons_self, Option.some.inj hid⟩
      · rintro ⟨r', hr', rfl⟩
        rcases List.mem_append.1 hr' with hr' | hr'
        · exact absurd hr' (h.not_mem hgoing r')
        · cases List.mem_singleton.1 hr'
          rfl
    · rw [if_neg hj, h.ended j id]
      constructor
      · rintro ⟨r', hr', hid⟩
        exact ⟨r', List.mem_append_left _ hr', hid⟩
      · rintro ⟨r', hr', hid⟩
        rcases List.mem_append.1 hr' with hr' | hr'
        · exact ⟨r', hr', hid⟩
        · exact absurd (congrArg Prod.fst (List.mem_singleton.1 hr')) hj
  composed x hx := by
    rcases List.mem_append.1 hx with hx | hx
    · exact h.composed x hx
    · rw [List.mem_singleton.1 hx]
      exact hnew
  prepared := advance_prepared trivial h.prepared

end Adds

theorem step_adds {won : List (Fin n × RunRecord)} (h : Adds q s won c) (t : Fin n × Readings) :
    ∃ more, Adds q s (won ++ more) (c.step q t) := by
  obtain ⟨i, clock⟩ := t
  have hsteps := Creation.step_steps (q := q i) clock (h.prepared i) c.store c.draws
  unfold step
  dsimp only
  generalize (c.creations i).step (q i) clock c.store c.draws = next at hsteps ⊢
  obtain ⟨creation, store, draws⟩ := next
  cases hsteps with
  | kept hid hprepared => exact ⟨[], (List.append_nil won).symm ▸ h.kept hid hprepared⟩
  | added hgoing hnew hinsert => exact ⟨_, h.added hgoing hnew hinsert⟩

theorem run_adds {won : List (Fin n × RunRecord)} (h : Adds q s won c)
    (ts : List (Fin n × Readings)) : ∃ more, Adds q s (won ++ more) (c.run q ts) := by
  induction ts generalizing c won with
  | nil => exact ⟨[], (List.append_nil won).symm ▸ h⟩
  | cons t rest ih =>
    obtain ⟨first, hfirst⟩ := step_adds h t
    obtain ⟨more, hmore⟩ := ih hfirst
    exact ⟨first ++ more, List.append_assoc .. ▸ hmore⟩

def successes (c : Race n) : Nat := (Finset.univ.filter fun i => (c.id? i).isSome).card

namespace Adds

variable {won : List (Fin n × RunRecord)}

theorem successes_eq (h : Adds q s won c) : c.successes = won.length := by
  have hwon : (Finset.univ.filter fun i => (c.id? i).isSome) = (won.map (·.1)).toFinset := by
    ext i
    rw [Finset.mem_filter_univ, List.mem_toFinset, List.mem_map, Option.isSome_iff_exists]
    constructor
    · rintro ⟨id, hid⟩
      obtain ⟨r, hr, -⟩ := (h.ended i id).1 hid
      exact ⟨(i, r), hr, rfl⟩
    · rintro ⟨⟨_, r⟩, hr, rfl⟩
      exact ⟨r.run.id, (h.ended _ _).2 ⟨r, hr, rfl⟩⟩
  rw [successes, hwon, List.toFinset_card_of_nodup h.numbers, List.length_map]

theorem distinct_ids (h : Adds q s won c) {i j : Fin n} {id : RunId} (hi : c.id? i = some id)
    (hj : c.id? j = some id) : i = j := by
  obtain ⟨r, hr, hid⟩ := (h.ended i id).1 hi
  obtain ⟨r', hr', hid'⟩ := (h.ended j id).1 hj
  have hdistinct := c.store.distinct
  rw [h.records, List.map_append, List.map_map] at hdistinct
  have hsame : (i, r) = (j, r') :=
    List.inj_on_of_nodup_map (List.nodup_append.1 hdistinct).2.1 hr hr' (hid.trans hid'.symm)
  exact congrArg Prod.fst hsame

/-- The record of a success is found under its identifier, which was free before. -/
theorem find?_of_ended (h : Adds q s won c) {i : Fin n} {id : RunId} (hi : c.id? i = some id) :
    s.find? id.text = none ∧ ∃ r, c.store.find? id.text = some r ∧ (q i).Composed r := by
  obtain ⟨r, hr, rfl⟩ := (h.ended i id).1 hi
  have hadded : r ∈ won.map (·.2) := List.mem_map_of_mem hr
  have hfound : r ∈ c.store.records := h.records ▸ List.mem_append_right _ hadded
  refine ⟨?_, r, RunStore.find?_of_mem hfound, h.composed _ hr⟩
  cases hold : s.find? r.run.id.text with
  | none => rfl
  | some x =>
    have hdistinct := c.store.distinct
    rw [h.records, List.map_append, List.nodup_append] at hdistinct
    have hne := hdistinct.2.2 _ (List.mem_map_of_mem (RunStore.mem_of_find? hold)) _
      (List.mem_map_of_mem hadded)
    exact absurd (RunId.text_inj.1 (RunStore.text_of_find? hold)) hne

end Adds
end Race

/-- A request for a run gets a fresh one or fails and changes nothing, and creations that take
their steps in any order never get in each other's way.

The first part says which draw decides.  In the second part any number of creations share a
store, from any state of it: at any time those that have succeeded have different identifiers,
each of which was free and now has the record that was asked for, and the store has grown by
just as many records.  What is in the store stays as it is. -/
theorem creation_fresh_or_fails (o : Orchestrator) (clock : Readings) (draws : Draws) (m : Inbound)
    (i : Intent) {jobKey : String} (hkind : i.kind = .runJob) (hkey : i.jobKey = some jobKey) :
    (∃ result s' draws',
      Creation.Searched (.ofMessage m jobKey) clock o.store draws Creation.maxDraws
        (result, s', draws') ∧
      o.handle clock draws m i =
        (result.map fun made =>
            { InboundOutcome.ofIntent i with run := some made.1.text, notices := [made.2] },
          { o with store := s', receipts := o.receipts + 1 }, draws')) ∧
    ∀ {n : Nat} (q : Fin n → RunRequest) (s : RunStore) (draws : Draws)
      (ts : List (Fin n × Readings)),
      let c := (Race.start n s draws).run q ts
      (∀ i j id, c.id? i = some id → c.id? j = some id → i = j) ∧
      (∀ i id, c.id? i = some id →
        s.find? id.text = none ∧ ∃ r, c.store.find? id.text = some r ∧ (q i).Composed r) ∧
      c.store.size = s.size + c.successes ∧
      s.records <+: c.store.records ∧
      ∀ ts', c.store.records <+: (c.run q ts').store.records := by
  constructor
  · have hsearched := Creation.complete_searched (.ofMessage m jobKey) clock o.store draws
    have hhandle : o.handle clock draws m i =
        { o with receipts := o.receipts + 1 }.request clock draws m jobKey (.ofIntent i) := by
      unfold Orchestrator.handle
      simp only [hkind, hkey]
    rw [hhandle]
    unfold Orchestrator.request
    dsimp only
    generalize Creation.complete (.ofMessage m jobKey) clock o.store draws = ended
      at hsearched ⊢
    obtain ⟨result, s', draws'⟩ := ended
    refine ⟨result, s', draws', hsearched, ?_⟩
    cases result with
    | error e => rfl
    | ok made => rfl
  · intro n q s draws ts c
    obtain ⟨won, hadds⟩ := Race.run_adds (Race.start_adds q s draws) ts
    rw [List.nil_append] at hadds
    refine ⟨fun i j id => hadds.distinct_ids, fun i id => hadds.find?_of_ended, ?_, ?_, ?_⟩
    · show c.store.records.length = s.records.length + c.successes
      rw [hadds.records, hadds.successes_eq, List.length_append, List.length_map]
    · exact ⟨_, hadds.records.symm⟩
    · intro ts'
      obtain ⟨more, hmore⟩ := Race.run_adds hadds ts'
      refine ⟨more.map (·.2), ?_⟩
      rw [hmore.records, hadds.records, List.map_append, List.append_assoc]

def RunRequest.ofTwo : Fin 2 → RunRequest
  | 0 => ⟨"backup", "alice", "chat", "ops"⟩
  | 1 => ⟨"deploy", "bob", "chat", "ops"⟩

/-- Both creations look before either adds, and both find the identifier that is drawn twice
free. -/
def Race.collision : Race 2 :=
  (Race.start 2 .empty (.ofList [some 0, some 0, some 1])).run RunRequest.ofTwo
    ([0, 1, 0, 1, 1, 1].map fun i => (i, default))

def Inbound.wish : Inbound :=
  { channel := "chat", sender := "alice", conversation := "ops", body := "run backup" }

/-- A request in an empty store gets the first identifier drawn, and of two that collide the
second one draws again. -/
theorem creation_fresh_or_fails_collision :
    (∃ made s' draws',
      Creation.Searched (.ofMessage .wish "backup") default .empty (.ofList [some 0])
        Creation.maxDraws (.ok made, s', draws') ∧ made.1.text = "run-0-0000") ∧
    Race.collision.id? 0 = some ⟨"run-0-0000", by decide⟩ ∧
    Race.collision.id? 1 = some ⟨"run-0-0001", by decide⟩ ∧
    Race.collision.store.size = RunStore.empty.size + Race.collision.successes := by
  have hkey : (Intent.parse Inbound.wish.body).jobKey = some "backup" := by decide
  obtain ⟨hone, hmany⟩ := creation_fresh_or_fails (.new .requesterOnly) default
    (.ofList [some 0]) .wish (.parse Inbound.wish.body) (by decide) hkey
  refine ⟨?_, by rfl, by rfl, (hmany RunRequest.ofTwo .empty _ _).2.2.1⟩
  obtain ⟨result, s', draws', hsearched, hhandle⟩ := hone
  have hrun : (Orchestrator.handle (.new .requesterOnly) default (.ofList [some 0]) .wish
      (.parse Inbound.wish.body)).1.map (·.run) = .ok (some "run-0-0000") := by rfl
  rw [hhandle] at hrun
  cases result with
  | error e => cases hrun
  | ok made => exact ⟨made, s', draws', hsearched, Option.some.inj (Except.ok.inj hrun)⟩

end JobGate
