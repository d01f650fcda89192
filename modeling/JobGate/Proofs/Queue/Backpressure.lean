/-
Any number of producers at one queue.

A call to enqueue goes round a loop: it looks at its token, looks for room and inserts in
one go, and otherwise waits and starts again.  `Inflow` has any number of such calls in
progress at once, with everything else that is done to the queue in between.  A round is
two moves, so a token may also be raised after a call has looked at it.

`Moves` is all that a move can do, with the entries that it inserts.  The bound on the live
entries, the order of the identifiers and the account of every call follow from it by
induction over the moves.
-/
import JobGate.Proofs.Queue.Backend
import JobGate.Proofs.Queue.Calls
import JobGate.Queue.Storage

namespace JobGate

/-! ## Entries that a change inserts -/

namespace LiveQueue

def ids (q : LiveQueue) : List Int := q.entries.map (·.id)

def newest (q : LiveQueue) (d : Dispatch) : LiveEntry := ⟨q.next, d.run.text, d.jobKey, 0, none⟩

def newcomers (q q' : LiveQueue) : List LiveEntry := q'.entries.filter (·.id ∉ q.ids)

/-- Entries go, stay or change, or one is added where there is room. -/
inductive Steps (q : LiveQueue) : List LiveEntry → LiveQueue → Prop
  | kept {q' : LiveQueue} (hids : q'.ids.Sublist q.ids) (hnext : q'.next = q.next)
      (hcapacity : q'.capacity = q.capacity) : Steps q [] q'
  | added (d : Dispatch) (hroom : q.entries.length < q.capacity) : Steps q [q.newest d] (q.add d)

variable {q q' : LiveQueue}

theorem Steps.refl (q : LiveQueue) : q.Steps [] q := .kept (.refl _) rfl rfl

theorem ids_hold (q : LiveQueue) (id : Int) (worker : String) :
    (q.hold id worker).ids = q.ids := map_update (·.id) fun _ => rfl

theorem ids_free (q : LiveQueue) (p : LiveEntry → Bool) : (q.free p).ids = q.ids :=
  map_update (·.id) fun _ => rfl

theorem Steps.hold (q : LiveQueue) (id : Int) (worker : String) : q.Steps [] (q.hold id worker) :=
  .kept (ids_hold q id worker ▸ .refl _) rfl rfl

theorem Steps.free (q : LiveQueue) (p : LiveEntry → Bool) : q.Steps [] (q.free p) :=
  .kept (ids_free q p ▸ .refl _) rfl rfl

theorem Steps.remove (q : LiveQueue) (id : Int) : q.Steps [] (q.remove id) :=
  .kept (List.filter_sublist.map _) rfl rfl

theorem Steps.newcomers_eq {new : List LiveEntry} (hq : q.Sound) (h : q.Steps new q') :
    q.newcomers q' = new := by
  cases h with
  | kept hids _ _ =>
    refine List.filter_eq_nil_iff.2 fun e he => ?_
    have hmem : e.id ∈ q.ids := hids.subset (List.mem_map_of_mem he)
    simpa using hmem
  | added d hroom =>
    -- the next identifier is that of no entry, so the new entry is told from the others by it
    have hfresh : q.next ∉ q.ids := by
      intro hmem
      obtain ⟨e, he, hid⟩ := List.mem_map.1 hmem
      exact Int.lt_irrefl _ (hid ▸ hq.fresh e he)
    have hold : q.entries.filter (·.id ∉ q.ids) = [] := by
      refine List.filter_eq_nil_iff.2 fun e he => ?_
      have hmem : e.id ∈ q.ids := List.mem_map_of_mem he
      simpa using hmem
    show (q.entries ++ [q.newest d]).filter (·.id ∉ q.ids) = _
    rw [List.filter_append, hold, List.nil_append]
    exact List.filter_cons_of_pos (decide_eq_true hfresh)

theorem Steps.bound {new : List LiveEntry} (h : q.Steps new q')
    (hbound : q.entries.length ≤ q.capacity) :
    q'.capacity = q.capacity ∧ q'.entries.length ≤ q'.capacity := by
  cases h with
  | kept hids _ hcapacity =>
    have hlength := hids.length_le
    simp only [ids, List.length_map] at hlength
    exact ⟨hcapacity, by omega⟩
  | added d hroom =>
    refine ⟨rfl, ?_⟩
    show (q.entries ++ [q.newest d]).length ≤ q.capacity
    rw [List.length_append, List.length_singleton]
    exact hroom

/-- The entries that were ever inserted have ascending identifiers, and the next identifier
is above them. -/
structure Numbers (log : List LiveEntry) (q : LiveQueue) : Prop where
  ascending : (log.map (·.id)).Pairwise (· < ·)
  below : ∀ e ∈ log, e.id < q.next

theorem Steps.numbers {log new : List LiveEntry} (h : q.Steps new q') (hlog : Numbers log q) :
    Numbers (log ++ new) q' := by
  cases h with
  | kept _ hnext _ =>
    rw [List.append_nil]
    exact ⟨hlog.ascending, hnext ▸ hlog.below⟩
  | added d _ =>
    constructor
    · rw [List.map_append]
      refine ascending_concat hlog.ascending fun i hi => ?_
      obtain ⟨e, he, rfl⟩ := List.mem_map.1 hi
      exact hlog.below e he
    · intro e he
      show e.id < q.next + 1
      rcases List.mem_append.1 he with he | he
      · exact Int.lt_trans (hlog.below e he) (Int.lt_succ q.next)
      · rw [List.mem_singleton.1 he]
        exact Int.lt_succ q.next

theorem Guarded.steps {allowed : Prop} {id : Int} {target live : LiveQueue}
    {answer : Except QueueError Unit} (h : Guarded allowed id q target answer live)
    (htarget : q.Steps [] target) : q.Steps [] live := by
  cases h with
  | done _ => exact htarget
  | notClaimed _ => exact .refl q

end LiveQueue

namespace Backend

variable {q : Backend}

/-- Whatever is called, one entry at most is inserted, and only where there is room. -/
theorem perform_steps (h : q.Sound) (c : QueueCall) :
    (ExecutionQueue.perform q c).2.Sound ∧
      ∃ new, q.live.Steps new (ExecutionQueue.perform q c).2.live := by
  obtain ⟨clock, op⟩ := c
  cases op with
  | offer d stopped =>
    obtain ⟨hsound, hoffered⟩ := offer_answers h clock d stopped
    refine ⟨hsound, ?_⟩
    show ∃ new, q.live.Steps new (ExecutionQueue.offer q clock d stopped).2.live
    generalize (ExecutionQueue.offer q clock d stopped).1 = answer at hoffered
    generalize (ExecutionQueue.offer q clock d stopped).2.live = live at hoffered ⊢
    cases hoffered with
    | added _ hroom => exact ⟨_, .added d hroom⟩
    | full _ _ | canceled _ => exact ⟨_, .refl _⟩
  | claim worker =>
    obtain ⟨hsound, hclaims⟩ := claim_answers h clock worker
    refine ⟨hsound, [], ?_⟩
    show q.live.Steps [] (ExecutionQueue.claim q clock worker).2.live
    generalize (ExecutionQueue.claim q clock worker).1 = answer at hclaims
    generalize (ExecutionQueue.claim q clock worker).2.live = live at hclaims ⊢
    cases hclaims with
    | nothing _ | refused _ _ => exact .refl _
    | claimed _ _ _ _ _ => exact .hold _ _ _
    | discarded _ _ => exact .remove _ _
  | complete id success error =>
    obtain ⟨hsound, hguarded⟩ := complete_answers h clock id success error
    exact ⟨hsound, [], hguarded.steps (.remove _ _)⟩
  | release id error =>
    obtain ⟨hsound, hguarded⟩ := release_answers h clock id error
    exact ⟨hsound, [], hguarded.steps (.free _ _)⟩
  | renew id worker =>
    obtain ⟨hsound, hguarded⟩ := renew_answers h clock id worker
    exact ⟨hsound, [], hguarded.steps (.refl _)⟩
  | reclaim timeout =>
    obtain ⟨hsound, -, hlive⟩ := reclaim_answers h clock timeout
    exact ⟨hsound, [], hlive ▸ .free _ _⟩
  | depth =>
    obtain ⟨hsound, -, hlive⟩ := depth_answers h
    exact ⟨hsound, [], hlive ▸ .refl _⟩

def new : BackendKind → Nat → Backend
  | .memory, capacity => memory (.new capacity)
  | .table, capacity => table (.new capacity)

theorem new_sound (kind : BackendKind) (capacity : Nat) : (new kind capacity).Sound := by
  cases kind with
  | memory => exact MemoryQueue.new_sound capacity
  | table => exact TableQueue.new_sound capacity

theorem new_live (kind : BackendKind) (capacity : Nat) :
    (new kind capacity).live.entries = [] ∧
      (new kind capacity).live.capacity = max capacity 1 := by
  cases kind <;> exact ⟨rfl, rfl⟩

end Backend

/-! ## Calls in progress -/

inductive EnqueuePhase
  /-- At the start of a round. -/
  | looking
  /-- It has looked at its token, and is about to look for room. -/
  | attempting (stopped : Bool)
  | returned (result : Except QueueError Offer)

structure EnqueueCall where
  dispatch : Dispatch
  token : Nat
  phase : EnqueuePhase := .looking

/-- A queue with the calls to enqueue, by number, and the tokens that were raised. -/
structure Inflow where
  queue : Backend
  raised : Nat → Bool
  calls : Nat → Option EnqueueCall

namespace Inflow

inductive Move
  | enqueue (n : Nat) (d : Dispatch) (token : Nat)
  | look (n : Nat)
  | attempt (n : Nat) (clock : Clock)
  | cancel (token : Nat)
  /-- Anything else that is done to the queue. -/
  | other (c : QueueCall)

def start (kind : BackendKind) (capacity : Nat) : Inflow :=
  ⟨.new kind capacity, fun _ => false, fun _ => none⟩

def put (t : Inflow) (n : Nat) (c : EnqueueCall) : Inflow :=
  { t with calls := Function.update t.calls n (some c) }

def phaseAfter : Except QueueError Offer → EnqueuePhase
  | .ok .full => .looking
  | result => .returned result

def step (t : Inflow) : Move → Inflow
  | .enqueue n d token =>
    match t.calls n with
    | none => t.put n { dispatch := d, token }
    | some _ => t
  | .look n =>
    match t.calls n with
    | some ⟨d, token, .looking⟩ => t.put n ⟨d, token, .attempting (t.raised token)⟩
    | _ => t
  | .attempt n clock =>
    match t.calls n with
    | some ⟨d, token, .attempting stopped⟩ =>
      let (result, queue) := ExecutionQueue.offer t.queue clock d stopped
      { t with queue }.put n ⟨d, token, phaseAfter result⟩
    | _ => t
  | .cancel token => { t with raised := Function.update t.raised token true }
  | .other c => { t with queue := (ExecutionQueue.perform t.queue c).2 }

def run (t : Inflow) (ms : List Move) : Inflow := ms.foldl step t

def inserted (t : Inflow) (m : Move) : List LiveEntry :=
  t.queue.live.newcomers (t.step m).queue.live

def Move.isAttemptOf (n : Nat) : Move → Bool
  | .attempt k _ => k = n
  | .enqueue _ _ _ | .look _ | .cancel _ | .other _ => false

theorem Move.isAttemptOf_attempt {n k : Nat} {clock : Clock} :
    Move.isAttemptOf n (.attempt k clock) = true ↔ k = n := decide_eq_true_iff

def insertions : Inflow → List Move → List LiveEntry
  | _, [] => []
  | t, m :: rest => t.inserted m ++ insertions (t.step m) rest

def insertionsBy (n : Nat) : Inflow → List Move → List LiveEntry
  | _, [] => []
  | t, m :: rest =>
    (if m.isAttemptOf n then t.inserted m else []) ++ insertionsBy n (t.step m) rest

variable {t t' : Inflow} {m : Move} {n : Nat}

theorem run_concat (t : Inflow) (ms : List Move) (m : Move) :
    t.run (ms ++ [m]) = (t.run ms).step m := List.foldl_append ..

theorem insertions_concat (t : Inflow) (ms : List Move) (m : Move) :
    t.insertions (ms ++ [m]) = t.insertions ms ++ (t.run ms).inserted m := by
  induction ms generalizing t with
  | nil => simp [insertions, run]
  | cons x rest ih =>
    rw [List.cons_append, insertions, ih, insertions, List.append_assoc]
    rfl

theorem insertionsBy_concat (n : Nat) (t : Inflow) (ms : List Move) (m : Move) :
    t.insertionsBy n (ms ++ [m]) =
      t.insertionsBy n ms ++ if m.isAttemptOf n then (t.run ms).inserted m else [] := by
  induction ms generalizing t with
  | nil => simp [insertionsBy, run]
  | cons x rest ih =>
    rw [List.cons_append, insertionsBy, ih, insertionsBy, List.append_assoc]
    rfl

/-! ## All that a move can do -/

inductive Moves (t : Inflow) : Move → List LiveEntry → Inflow → Prop
  | idle (m : Move) : Moves t m [] t
  | begun {n : Nat} {d : Dispatch} {token : Nat} (hcall : t.calls n = none) :
      Moves t (.enqueue n d token) [] (t.put n { dispatch := d, token })
  | looked {n token : Nat} {d : Dispatch} (hcall : t.calls n = some ⟨d, token, .looking⟩) :
      Moves t (.look n) [] (t.put n ⟨d, token, .attempting (t.raised token)⟩)
  | entered {n token : Nat} {clock : Clock} {d : Dispatch} {queue : Backend}
      (hcall : t.calls n = some ⟨d, token, .attempting false⟩) (hsound : queue.Sound)
      (hroom : t.queue.live.entries.length < t.queue.live.capacity)
      (hlive : queue.live = t.queue.live.add d) :
      Moves t (.attempt n clock) [t.queue.live.newest d]
        ({ t with queue }.put n ⟨d, token, .returned (.ok (.entry t.queue.live.next))⟩)
  | full {n token : Nat} {clock : Clock} {d : Dispatch} {queue : Backend}
      (hcall : t.calls n = some ⟨d, token, .attempting false⟩) (hsound : queue.Sound)
      (hlive : queue.live = t.queue.live) :
      Moves t (.attempt n clock) [] ({ t with queue }.put n ⟨d, token, .looking⟩)
  | canceled {n token : Nat} {clock : Clock} {d : Dispatch} {queue : Backend}
      (hcall : t.calls n = some ⟨d, token, .attempting true⟩) (hsound : queue.Sound)
      (hlive : queue.live = t.queue.live) :
      Moves t (.attempt n clock) []
        ({ t with queue }.put n ⟨d, token, .returned (.ok .canceled)⟩)
  | raised (token : Nat) :
      Moves t (.cancel token) [] { t with raised := Function.update t.raised token true }
  | other {c : QueueCall} {new : List LiveEntry} {queue : Backend} (hsound : queue.Sound)
      (hsteps : t.queue.live.Steps new queue.live) : Moves t (.other c) new { t with queue }

theorem Moves.steps {new : List LiveEntry} (h : t.queue.Sound) (hm : t.Moves m new t') :
    t'.queue.Sound ∧ t.queue.live.Steps new t'.queue.live := by
  cases hm with
  | idle | begun _ | looked _ | raised _ => exact ⟨h, .refl _⟩
  | entered _ hsound hroom hlive => exact ⟨hsound, hlive ▸ .added _ hroom⟩
  | full _ hsound hlive | canceled _ hsound hlive => exact ⟨hsound, hlive ▸ .refl _⟩
  | other hsound hsteps => exact ⟨hsound, hsteps⟩

theorem exists_moves (h : t.queue.Sound) (m : Move) : ∃ new, t.Moves m new (t.step m) := by
  cases m with
  | enqueue n d token =>
    simp only [step]
    cases hcall : t.calls n with
    | none => exact ⟨_, .begun hcall⟩
    | some c => exact ⟨_, .idle _⟩
  | look n =>
    simp only [step]
    split
    · exact ⟨_, .looked ‹_›⟩
    · exact ⟨_, .idle _⟩
  | attempt n clock =>
    simp only [step]
    split
    · -- what the queue answers decides which of the three moves this is
      rename_i d token stopped hcall
      obtain ⟨hsound, hoffered⟩ := Backend.offer_answers h clock d stopped
      generalize ExecutionQueue.offer t.queue clock d stopped = r at hsound hoffered
      obtain ⟨result, queue⟩ := r
      replace hoffered : t.queue.live.Offered d stopped result queue.live := hoffered
      generalize hlive : queue.live = live at hoffered
      cases hoffered with
      | added hgo hroom => exact ⟨_, .entered (hgo ▸ hcall) hsound hroom hlive⟩
      | full hgo _ => exact ⟨_, .full (hgo ▸ hcall) hsound hlive⟩
      | canceled hstop => exact ⟨_, .canceled (hstop ▸ hcall) hsound hlive⟩
    · exact ⟨_, .idle _⟩
  | cancel token => exact ⟨_, .raised token⟩
  | other c =>
    obtain ⟨hsound, new, hsteps⟩ := Backend.perform_steps h c
    exact ⟨new, .other hsound hsteps⟩

theorem step_moves (h : t.queue.Sound) (m : Move) : t.Moves m (t.inserted m) (t.step m) := by
  obtain ⟨new, hm⟩ := exists_moves h m
  rw [inserted, (hm.steps h).2.newcomers_eq (Backend.sound_live h)]
  exact hm

/-! ## After any moves -/

/-- The queue is sound and holds no more entries than it may. -/
structure Bounded (capacity : Nat) (t : Inflow) : Prop where
  sound : t.queue.Sound
  room : t.queue.live.capacity = max capacity 1
  bound : t.queue.live.entries.length ≤ t.queue.live.capacity

theorem start_bounded (kind : BackendKind) (capacity : Nat) :
    (start kind capacity).Bounded capacity := by
  obtain ⟨hentries, hroom⟩ := Backend.new_live kind capacity
  refine ⟨Backend.new_sound kind capacity, hroom, ?_⟩
  show (Backend.new kind capacity).live.entries.length ≤ _
  rw [hentries]
  exact Nat.zero_le _

theorem run_bounded (kind : BackendKind) (capacity : Nat) (ms : List Move) :
    ((start kind capacity).run ms).Bounded capacity := by
  induction ms using List.reverseRecOn with
  | nil => exact start_bounded kind capacity
  | append_singleton ms m ih =>
    rw [run_concat]
    obtain ⟨hsound, hsteps⟩ := (step_moves ih.sound m).steps ih.sound
    obtain ⟨hcapacity, hbound⟩ := hsteps.bound ih.bound
    exact ⟨hsound, hcapacity.trans ih.room, hbound⟩

theorem run_numbers (kind : BackendKind) (capacity : Nat) (ms : List Move) :
    LiveQueue.Numbers ((start kind capacity).insertions ms)
      ((start kind capacity).run ms).queue.live := by
  induction ms using List.reverseRecOn with
  | nil => exact ⟨.nil, fun _ he => absurd he List.not_mem_nil⟩
  | append_singleton ms m ih =>
    have hsound := (run_bounded kind capacity ms).sound
    rw [run_concat, insertions_concat]
    exact ((step_moves hsound m).steps hsound).2.numbers ih

theorem Moves.raised_or {new : List LiveEntry} {token : Nat} (hm : t.Moves m new t')
    (h : t'.raised token = true) : t.raised token = true ∨ m = .cancel token := by
  cases hm with
  | idle | begun _ | looked _ | entered _ _ _ _ | full _ _ _ | canceled _ _ _ | other _ _ =>
    exact .inl h
  | raised k =>
    by_cases hk : token = k
    · exact .inr (hk ▸ rfl)
    · exact .inl ((Function.update_of_ne hk true t.raised).symm.trans h)

/-- A token that is raised was canceled. -/
theorem run_raised {kind : BackendKind} {capacity : Nat} {ms : List Move} {token : Nat}
    (h : ((start kind capacity).run ms).raised token = true) : .cancel token ∈ ms := by
  induction ms using List.reverseRecOn with
  | nil => cases h
  | append_singleton ms m ih =>
    rw [run_concat] at h
    rcases (step_moves (run_bounded kind capacity ms).sound m).raised_or h with h | rfl
    · exact List.mem_append_left _ (ih h)
    · exact List.mem_append_right _ (List.mem_singleton_self _)

/-- What a call to enqueue has come to, with the entries that it inserted: a call that has
returned an entry inserted that one and no other, any other call inserted none, and one that
gave up had its token canceled. -/
inductive Accounts (canceled : Nat → Prop) : Option EnqueueCall → List LiveEntry → Prop
  | none : Accounts canceled none []
  | looking {d : Dispatch} {token : Nat} : Accounts canceled (some ⟨d, token, .looking⟩) []
  | attempting {d : Dispatch} {token : Nat} {stopped : Bool}
      (hstop : stopped = true → canceled token) :
      Accounts canceled (some ⟨d, token, .attempting stopped⟩) []
  | entered {d : Dispatch} {token : Nat} {id : Int} :
      Accounts canceled (some ⟨d, token, .returned (.ok (.entry id))⟩)
        [⟨id, d.run.text, d.jobKey, 0, none⟩]
  | canceled {d : Dispatch} {token : Nat} (hstop : canceled token) :
      Accounts canceled (some ⟨d, token, .returned (.ok .canceled)⟩) []

section
variable {canceled canceled' : Nat → Prop} {log new : List LiveEntry} {c : Option EnqueueCall}

theorem Accounts.mono (h : Accounts canceled c log)
    (hle : ∀ token, canceled token → canceled' token) : Accounts canceled' c log := by
  cases h with
  | none => exact .none
  | looking => exact .looking
  | attempting hstop => exact .attempting fun hs => hle _ (hstop hs)
  | entered => exact .entered
  | canceled hstop => exact .canceled (hle _ hstop)

theorem Accounts.eq_nil (h : Accounts canceled c log)
    (hc : ∀ d token result, c ≠ some ⟨d, token, .returned result⟩) : log = [] := by
  cases h with
  | none | looking | attempting _ => rfl
  | entered | canceled _ => exact absurd rfl (hc _ _ _)

theorem Accounts.put {k : Nat} {x : EnqueueCall} {log' : List LiveEntry}
    (h : Accounts canceled (t.calls n) log) (hown : n = k → Accounts canceled (some x) log')
    (hother : n ≠ k → log' = log) : Accounts canceled ((t.put k x).calls n) log' := by
  show Accounts canceled (Function.update t.calls k (some x) n) log'
  by_cases hk : n = k
  · rw [hk, Function.update_self]
    exact hown hk
  · rw [Function.update_of_ne hk, hother hk]
    exact h

theorem Moves.accounts (hm : t.Moves m new t') (h : Accounts canceled (t.calls n) log)
    (hraised : ∀ token, t.raised token = true → canceled token) :
    Accounts canceled (t'.calls n) (log ++ if m.isAttemptOf n then new else []) := by
  -- a call on its way has inserted nothing yet, so what it inserts now is all it ever inserts
  have hnil : ∀ {k : Nat} {d : Dispatch} {token : Nat} {phase : EnqueuePhase},
      t.calls k = some ⟨d, token, phase⟩ → (∀ result, phase ≠ .returned result) → n = k →
        log = [] := by
    rintro k d token phase hcall hphase rfl
    refine h.eq_nil fun d' token' result heq => hphase result ?_
    rw [hcall] at heq
    cases heq
    rfl
  cases hm with
  | idle m =>
    rw [ite_self, List.append_nil]
    exact h
  | begun hcall =>
    rw [ite_self, List.append_nil]
    refine h.put (fun hk => ?_) fun _ => rfl
    rw [h.eq_nil (by rw [hk, hcall]; nofun)]
    exact .looking
  | looked hcall =>
    rw [ite_self, List.append_nil]
    refine h.put (fun hk => ?_) fun _ => rfl
    rw [hnil hcall nofun hk]
    exact .attempting (hraised _)
  | entered hcall _ _ _ =>
    refine Accounts.put (t := { t with queue := _ }) h (fun hk => ?_) fun hk => ?_
    · rw [hnil hcall nofun hk, if_pos (Move.isAttemptOf_attempt.2 hk.symm)]
      exact .entered
    · rw [if_neg fun hattempt => hk (Move.isAttemptOf_attempt.1 hattempt).symm, List.append_nil]
  | full hcall _ _ =>
    rw [ite_self, List.append_nil]
    refine Accounts.put (t := { t with queue := _ }) h (fun hk => ?_) fun _ => rfl
    rw [hnil hcall nofun hk]
    exact .looking
  | canceled hcall _ _ =>
    rw [ite_self, List.append_nil]
    refine Accounts.put (t := { t with queue := _ }) h (fun hk => ?_) fun _ => rfl
    rw [hnil hcall nofun hk]
    rw [hk, hcall] at h
    cases h with
    | attempting hstop => exact .canceled (hstop rfl)
  | raised token =>
    rw [ite_self, List.append_nil]
    exact h
  | other _ _ =>
    show Accounts _ _ (log ++ [])
    rw [List.append_nil]
    exact h

end

theorem run_accounts (kind : BackendKind) (capacity : Nat) (ms : List Move) (n : Nat) :
    Accounts (fun token => .cancel token ∈ ms) (((start kind capacity).run ms).calls n)
      ((start kind capacity).insertionsBy n ms) := by
  induction ms using List.reverseRecOn with
  | nil => exact .none
  | append_singleton ms m ih =>
    rw [run_concat, insertionsBy_concat]
    refine (step_moves (run_bounded kind capacity ms).sound m).accounts
      (ih.mono fun token htoken => List.mem_append_left _ htoken) fun token htoken => ?_
    exact List.mem_append_left _ (run_raised htoken)

/-- However many producers wait at a queue: it never holds more entries than it has room for,
each of their calls inserts its one entry or gives up when it is told to, and no identifier
is given out twice. -/
theorem backpressure (kind : BackendKind) (capacity : Nat) (ms : List Move) :
    (∃ d, (ExecutionQueue.depth ((start kind capacity).run ms).queue).1 = .ok d ∧
      d.live ≤ max capacity 1) ∧
    (∀ n, Accounts (fun token => .cancel token ∈ ms) (((start kind capacity).run ms).calls n)
      ((start kind capacity).insertionsBy n ms)) ∧
    (((start kind capacity).insertions ms).map (·.id)).Pairwise (· < ·) := by
  have hbounded := run_bounded kind capacity ms
  refine ⟨?_, run_accounts kind capacity ms, (run_numbers kind capacity ms).ascending⟩
  obtain ⟨-, hdepth, -⟩ := Backend.depth_answers hbounded.sound
  refine ⟨_, hdepth, ?_⟩
  rw [LiveQueue.depth_live, ← hbounded.room]
  exact hbounded.bound

/-- Where there is room for one, the second call gets in once the first entry is completed. -/
example (kind : BackendKind) :
    let d : Dispatch := ⟨⟨"run-0-0000", by decide⟩, "backup"⟩
    let clock : Clock := ⟨.epoch, 0⟩
    let blocked := (start kind 1).run [.enqueue 0 d 0, .enqueue 1 d 0, .look 0, .look 1,
      .attempt 1 clock, .attempt 0 clock]
    let drained := blocked.run [.other ⟨clock, .claim "worker-1"⟩,
      .other ⟨clock, .complete 1 true none⟩, .look 0, .attempt 0 clock]
    blocked.calls 1 = some ⟨d, 0, .returned (.ok (.entry 1))⟩ ∧
      blocked.calls 0 = some ⟨d, 0, .looking⟩ ∧
      drained.calls 0 = some ⟨d, 0, .returned (.ok (.entry 2))⟩ := by
  cases kind <;> exact ⟨rfl, rfl, rfl⟩

end Inflow
end JobGate
