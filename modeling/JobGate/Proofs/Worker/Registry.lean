/-
What a registry knows of its workers.

An event changes what is known of the worker that reports it and of no other, so the health of a
worker is a fold over its own events (`Registry.get?_applyAll`), however they were interleaved with
those of others.  What the fold comes to can be read off the events (`WorkerHealth.ofEvents`).
-/
import JobGate.Worker.Health
import Mathlib.Data.List.Dedup
import Mathlib.Data.List.DropRight
import Mathlib.Data.List.Induction

namespace JobGate

/-! ## The events of one worker -/

namespace WorkerEvent

def startTime? : WorkerEvent → Option Int
  | started _ time => some time
  | error _ _ _ | stopped _ _ => none

def stopTime? : WorkerEvent → Option Int
  | stopped _ time => some time
  | started _ _ | error _ _ _ => none

def failure? : WorkerEvent → Option (Int × String)
  | error _ time message => some (time, message)
  | started _ _ | stopped _ _ => none

def failures (es : List WorkerEvent) : List (Int × String) := es.filterMap failure?

def lastTurn? (es : List WorkerEvent) : Option WorkerEvent :=
  (es.filter fun e => e.failure?.isNone).getLast?

def sinceStop (es : List WorkerEvent) : List WorkerEvent :=
  es.rtakeWhile fun e => e.stopTime?.isNone

def own (worker : String) (es : List WorkerEvent) : List WorkerEvent :=
  es.filter (·.worker = worker)

variable {es : List WorkerEvent} {e : WorkerEvent}

@[simp] theorem failures_nil : failures [] = [] := rfl

theorem failures_concat : failures (es ++ [e]) = failures es ++ e.failure?.toList := by
  rw [failures, List.filterMap_append]
  cases he : e.failure? <;> simp [he, failures]

theorem lastTurn?_concat :
    lastTurn? (es ++ [e]) = if e.failure?.isNone then some e else lastTurn? es := by
  rw [lastTurn?, List.filter_append]
  split_ifs with he <;> simp [he, lastTurn?]

theorem sinceStop_concat :
    sinceStop (es ++ [e]) = if e.stopTime?.isNone then sinceStop es ++ [e] else [] :=
  List.rtakeWhile_concat ..

end WorkerEvent

namespace WorkerHealth

open WorkerEvent

/-- What the events of a worker say of its health. -/
def ofEvents (es : List WorkerEvent) : WorkerHealth where
  state :=
    if ((lastTurn? es).bind startTime?).isSome then .running
    else if failures (sinceStop es) ≠ [] then .error
    else .stopped
  lastError := (failures es).getLast?.map (·.2)
  lastErrorAt := (failures es).getLast?.map (·.1)
  errorCount := (failures es).length
  startedAt := (es.filterMap startTime?).getLast?
  stoppedAt := (lastTurn? es).bind stopTime?

theorem ofEvents_concat (es : List WorkerEvent) (e : WorkerEvent) :
    ofEvents (es ++ [e]) = (ofEvents es).after e := by
  cases e with
  | started _ _ | stopped _ _ =>
    simp [ofEvents, after, failures_concat, lastTurn?_concat, sinceStop_concat, failure?,
      startTime?, stopTime?]
  | error worker time message =>
    have hturn : lastTurn? (es ++ [.error worker time message]) = lastTurn? es :=
      lastTurn?_concat.trans (if_neg Bool.false_ne_true)
    have hfailed : failures (sinceStop (es ++ [.error worker time message])) ≠ [] := by
      simp [sinceStop_concat, failures_concat, failure?, stopTime?]
    -- the state is left as it is only if the worker runs or has failed before
    have hstate : (ofEvents (es ++ [.error worker time message])).state =
        if (ofEvents es).state = .stopped then .error else (ofEvents es).state := by
      simp only [ofEvents, hturn, if_pos hfailed]
      split_ifs <;> first | rfl | contradiction
    simp only [after, ← hstate]
    simp [ofEvents, hturn, failures_concat, failure?, startTime?]

/-- What is known of a worker after its events is what they say. -/
theorem foldl_after (es : List WorkerEvent) : es.foldl after {} = ofEvents es := by
  induction es using List.reverseRecOn with
  | nil => rfl
  | append_singleton es e ih =>
    rw [List.foldl_append, ih, ofEvents_concat]
    rfl

end WorkerHealth

/-! ## Registries -/

namespace Registry

open WorkerEvent

variable {r : Registry} {worker w : String} {f : WorkerHealth → WorkerHealth}
  {l : List (String × WorkerHealth)}

def names (r : Registry) : List String := r.workers.map (·.1)

/-- A registry of some workers that have not reported anything. -/
def ofNames (workers : List String) : Registry := workers.foldl register {}

theorem lookup_update (l : List (String × WorkerHealth)) : (update worker f l).lookup w =
    if worker = w then some (f ((l.lookup w).getD {})) else l.lookup w := by
  induction l with
  | nil =>
    by_cases hw : worker = w
    · simp [update, hw]
    · simp [update, List.lookup_cons, hw, beq_false_of_ne (Ne.symm hw)]
  | cons x rest ih =>
    obtain ⟨name, health⟩ := x
    unfold update
    by_cases hname : name = worker
    · subst hname
      by_cases hw : name = w
      · simp [hw]
      · simp [List.lookup_cons, hw, beq_false_of_ne (Ne.symm hw)]
    · rw [if_neg hname, List.lookup_cons, List.lookup_cons, ih]
      by_cases hw : w = name
      · simp [hw, Ne.symm hname]
      · simp [beq_false_of_ne hw]

theorem names_update (l : List (String × WorkerHealth)) : (update worker f l).map (·.1) =
    if worker ∈ l.map (·.1) then l.map (·.1) else l.map (·.1) ++ [worker] := by
  induction l with
  | nil => rfl
  | cons x rest ih =>
    unfold update
    by_cases hname : x.1 = worker
    · simp [hname]
    · rw [if_neg hname, List.map_cons, List.map_cons, ih]
      split_ifs <;> simp_all

/-- An event changes the health of the worker that reports it. -/
theorem get?_apply (r : Registry) (e : WorkerEvent) : (r.apply e).get? w =
    if e.worker = w then some (((r.get? w).getD {}).after e) else r.get? w :=
  lookup_update r.workers

theorem get?_register (r : Registry) (worker : String) : (r.register worker).get? w =
    if worker = w then some ((r.get? w).getD {}) else r.get? w :=
  lookup_update r.workers

theorem get?_ofNames (workers : List String) :
    (ofNames workers).get? w = if w ∈ workers then some {} else none := by
  induction workers using List.reverseRecOn with
  | nil => rfl
  | append_singleton workers worker ih =>
    have hconcat : ofNames (workers ++ [worker]) = (ofNames workers).register worker :=
      List.foldl_append ..
    rw [hconcat, get?_register, ih]
    by_cases hw : worker = w
    · subst hw
      split_ifs <;> simp_all
    · simp [hw, Ne.symm hw]

/-- The health of a worker is a fold over its own events. -/
theorem get?_applyAll (r : Registry) (es : List WorkerEvent) : (r.applyAll es).get? w =
    (own w es).foldl (fun h e => some ((h.getD {}).after e)) (r.get? w) := by
  induction es generalizing r with
  | nil => rfl
  | cons e es ih =>
    have happly : r.applyAll (e :: es) = (r.apply e).applyAll es := rfl
    rw [happly, ih, get?_apply, own, own, List.filter_cons]
    by_cases hw : e.worker = w <;> simp [hw]

theorem foldl_known (es : List WorkerEvent) (h : Option WorkerHealth) :
    es.foldl (fun h e => some ((h.getD {}).after e)) h =
      if es = [] then h else some (es.foldl WorkerHealth.after (h.getD {})) := by
  induction es generalizing h with
  | nil => rfl
  | cons e es ih =>
    rw [List.foldl_cons, ih, if_neg (List.cons_ne_nil e es)]
    split_ifs with hes
    · rw [hes]
      rfl
    · rfl

/-- A worker is known when it was registered or has reported something. -/
theorem get?_history (workers : List String) (es : List WorkerEvent) :
    ((ofNames workers).applyAll es).get? w =
      if w ∈ workers ∨ own w es ≠ [] then some (.ofEvents (own w es)) else none := by
  rw [get?_applyAll, foldl_known, get?_ofNames, ← WorkerHealth.foldl_after]
  by_cases hw : w ∈ workers <;> by_cases hown : own w es = [] <;> simp [hw, hown]

/-! ## Known workers -/

theorem nodup_update (h : (l.map (·.1)).Nodup) : ((update worker f l).map (·.1)).Nodup := by
  rw [names_update]
  split_ifs with hmem
  · exact h
  · exact List.nodup_append_comm.1 (List.nodup_cons.2 ⟨hmem, h⟩)

theorem nodup_applyAll (h : r.names.Nodup) (es : List WorkerEvent) :
    (r.applyAll es).names.Nodup := by
  induction es generalizing r with
  | nil => exact h
  | cons e es ih => exact ih (nodup_update h)

theorem nodup_ofNames (workers : List String) : (ofNames workers).names.Nodup := by
  induction workers using List.reverseRecOn with
  | nil => exact List.nodup_nil
  | append_singleton workers worker ih =>
    rw [ofNames, List.foldl_append]
    exact nodup_update ih

theorem mem_names : w ∈ r.names ↔ (r.get? w).isSome = true := by
  rw [get?, List.lookup_isSome_iff, names, List.mem_map]
  exact exists_congr fun x => and_congr_right fun _ => by rw [beq_iff_eq, eq_comm]

theorem mem_workers (h : r.names.Nodup) {health : WorkerHealth} :
    (w, health) ∈ r.workers ↔ r.get? w = some health := by
  obtain ⟨l⟩ := r
  induction l with
  | nil => simp [get?]
  | cons x rest ih =>
    obtain ⟨name, known⟩ := x
    obtain ⟨hnew, hrest⟩ := List.nodup_cons.1 h
    rw [List.mem_cons, ih hrest, get?, get?, List.lookup_cons]
    by_cases hw : w = name
    · subst hw
      have hnone : rest.lookup w = none := by
        rw [← Option.not_isSome_iff_eq_none]
        exact fun hsome => hnew (mem_names (r := ⟨rest⟩).2 hsome)
      simp [hnone, eq_comm]
    · simp [hw, beq_false_of_ne hw]

theorem running_eq (h : r.names.Nodup) :
    r.running = r.names.countP fun w => (r.get? w).any (·.state = .running) := by
  rw [running, names, List.countP_map]
  refine List.countP_congr fun x hx => ?_
  have hget : r.get? x.1 = some x.2 := (mem_workers h).1 hx
  rw [Function.comp_apply, hget, Option.any_some]

/-- Two registries that tell the same of every worker hold the same. -/
theorem perm_of_get? {r' : Registry} (h : r.names.Nodup) (h' : r'.names.Nodup)
    (hget : ∀ w, r'.get? w = r.get? w) : r'.workers.Perm r.workers := by
  refine (List.perm_ext_iff_of_nodup h'.of_map h.of_map).2 fun ⟨w, health⟩ => ?_
  rw [mem_workers h', mem_workers h, hget]

theorem names_perm (workers : List String) (es : List WorkerEvent) :
    ((ofNames workers).applyAll es).names.Perm (workers ++ es.map (·.worker)).dedup := by
  refine (List.perm_ext_iff_of_nodup (nodup_applyAll (nodup_ofNames workers) es)
    (List.nodup_dedup _)).2 fun w => ?_
  rw [mem_names, get?_history, List.mem_dedup, List.mem_append]
  have hown : own w es ≠ [] ↔ w ∈ es.map (·.worker) := by
    simp [own, List.filter_eq_nil_iff]
  rw [← hown]
  split_ifs with hw <;> simp [hw]

/-- What a registry knows of a worker depends on the events of this worker only.

It knows those that were registered or have reported something, and tells of each what its own
events say; it counts the workers that run.  So the registry is the same, but for the order in
which it lists the workers, when the events of several workers are interleaved otherwise, and
simply the same when the events are folded into it bit by bit. -/
theorem depends_on_own_events (workers : List String) (es : List WorkerEvent) :
    let r := (ofNames workers).applyAll es
    (∀ w, r.get? w =
      if w ∈ workers ∨ own w es ≠ [] then some (.ofEvents (own w es)) else none) ∧
    (r.running = (workers ++ es.map (·.worker)).dedup.countP fun w =>
      (r.get? w).any (·.state = .running)) ∧
    (∀ es', (∀ w, own w es' = own w es) →
      let r' := (ofNames workers).applyAll es'
      (∀ w, r'.get? w = r.get? w) ∧ r'.workers.Perm r.workers ∧ r'.running = r.running) ∧
    ∀ chunks : List (List WorkerEvent), chunks.flatten = es →
      chunks.foldl applyAll (ofNames workers) = r := by
  intro r
  have hnodup : ∀ es, ((ofNames workers).applyAll es).names.Nodup :=
    nodup_applyAll (nodup_ofNames workers)
  refine ⟨fun w => get?_history workers es, ?_, fun es' hown => ?_, fun chunks hchunks => ?_⟩
  · rw [running_eq (hnodup es)]
    exact (names_perm workers es).countP_eq _
  · have hget : ∀ w, ((ofNames workers).applyAll es').get? w = r.get? w := fun w => by
      rw [get?_history, get?_history, hown]
    have hperm := perm_of_get? (hnodup es) (hnodup es') hget
    exact ⟨hget, hperm, hperm.countP_eq _⟩
  · subst hchunks
    exact List.foldl_flatten.symm

/-- The events of two workers, one of which was never registered, in two orders. -/
theorem depends_on_own_events_interleaved :
    let es : List WorkerEvent := [.started "worker-1" 1, .error "worker-2" 2 "no queue",
      .error "worker-1" 3 "busy", .started "worker-2" 4, .stopped "worker-1" 5]
    let es' : List WorkerEvent := [.error "worker-2" 2 "no queue", .started "worker-2" 4,
      .started "worker-1" 1, .error "worker-1" 3 "busy", .stopped "worker-1" 5]
    let r := (ofNames ["worker-1"]).applyAll es
    r.get? "worker-1" = some ⟨.stopped, some "busy", some 3, 1, some 1, some 5⟩ ∧
      r.get? "worker-2" = some ⟨.running, some "no queue", some 2, 1, some 4, none⟩ ∧
      r.running = 1 ∧ ((ofNames ["worker-1"]).applyAll es').workers.Perm r.workers ∧
      ((ofNames ["worker-1"]).applyAll (es.take 2)).applyAll (es.drop 2) = r := by
  intro es es' r
  obtain ⟨hget, hrunning, horder, hchunks⟩ := depends_on_own_events ["worker-1"] es
  have hown : ∀ w, own w es' = own w es := by
    intro w
    rcases eq_or_ne "worker-1" w with rfl | h1
    · decide
    · rcases eq_or_ne "worker-2" w with rfl | h2
      · decide
      · simp [own, es, es', WorkerEvent.worker, h1, h2]
  exact ⟨(hget _).trans (by decide), (hget _).trans (by decide), hrunning.trans (by decide),
    (horder es' hown).2.1, hchunks [es.take 2, es.drop 2] rfl⟩

end Registry
end JobGate
