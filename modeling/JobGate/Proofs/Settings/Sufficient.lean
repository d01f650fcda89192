/-
What runs on settings that can be used has what it needs.

Each part of a desk has its own idea of what it can work with: a chat message holds words, a
job has a program, a table has a path, a wait is not zero.  Settings without a fault satisfy
all of them (`Settings.sufficient`), whatever the storage and the programs do.
-/
import JobGate.Proofs.Message.Command
import JobGate.Proofs.Queue.Backend
import JobGate.Proofs.Service.Execution
import JobGate.Proofs.Settings.Usable
import JobGate.Queue.Storage

namespace JobGate

/-! ## Execution

The two faults for want of a job are told from every other failure by how they begin. -/

namespace Jobs

variable {platform : Platform} {jobs : List (String × Job)} {d : Dispatch} {c : Command}
  {stopped : Nat → Bool} {looks : Nat} {r : Report}

/-- A text with something at its beginning begins with it. -/
theorem head?_append {before : String} {c : Char} (h : before.toList.head? = some c)
    (after : String) : (before ++ after).toList.head? = some c := by
  rw [String.toList_append, List.head?_append, h]
  rfl

def NothingFor (key : String) (r : Report) : Prop :=
  r = (Fault.notConfigured key).report ∨ r = (Fault.noCommand key).report

theorem NothingFor.failed {key : String} (h : NothingFor key r) : r.success = false := by
  rcases h with rfl | rfl
  · rfl
  · rfl

theorem NothingFor.head? {key : String} (h : NothingFor key r) :
    r.summary.toList.head? = some 'j' := by
  rcases h with rfl | rfl
  · exact head?_append (head?_append rfl _) _
  · exact head?_append (head?_append rfl _) _

theorem head?_clip (s : String) : (clip s).toList.head? = s.toList.head? := by
  rw [clip, String.toList_ofList, List.head?_take, if_neg (by decide)]

/-- A program that fails is reported with its exit first. -/
theorem head?_report {e : Ended} (h : (report e).success = false) :
    (report e).summary.toList.head? = some 'e' := by
  revert h
  unfold report
  split
  · exact nofun
  · intro _
    dsimp only
    split
    · exact (head?_clip _).trans (head?_append (head?_append (head?_append rfl _) _) _)
    · exact (head?_clip _).trans (head?_append rfl _)

theorem head?_notStarted (program : String) (fault : StartFault) :
    (Fault.notStarted program fault).message.toList.head? ≠ some 'j' := by
  cases fault with
  | missing =>
    have hhead : (Fault.notStarted program .missing).message.toList.head? = some 'c' :=
      head?_append (head?_append rfl _) _
    rw [hhead]
    decide
  | refused reason =>
    have hhead : (Fault.notStarted program (.refused reason)).message.toList.head? = some 'f' :=
      head?_append (head?_append (head?_append rfl _) _) _
    rw [hhead]
    decide

/-- No look at a program finds that there is nothing to execute. -/
theorem not_nothingFor_look {program : String} {stopped : Bool} {p : Progress}
    (h : p.report? program stopped = some r) (key : String) : ¬ NothingFor key r := by
  intro hnothing
  have hfailed := hnothing.failed
  have hhead := hnothing.head?
  cases p with
  | running =>
    cases stopped with
    | false => cases h
    | true =>
      cases h
      have hcanceled : canceled.summary.toList.head? = some 'e' := rfl
      cases hhead.symm.trans hcanceled
  | ended e =>
    cases h
    cases hhead.symm.trans (head?_report hfailed)
  | unknown reason =>
    cases h
    have hlost : (Fault.notFollowed program reason).message.toList.head? = some 'f' :=
      head?_append (head?_append (head?_append rfl _) _) _
    cases hhead.symm.trans hlost

/-- When the job of a dispatch has a program, there is something to execute. -/
theorem not_nothingFor_executed (hcommand : command? jobs d.jobKey = .ok c)
    (h : executed? platform jobs d stopped looks = some r) (key : String) :
    ¬ NothingFor key r := by
  simp only [executed?, hcommand] at h
  cases hstart : platform c (environment d) with
  | error fault =>
    rw [hstart] at h
    cases h
    exact fun hnothing => head?_notStarted c.program fault hnothing.head?
  | ok progress =>
    rw [hstart] at h
    obtain ⟨k, -, hlook⟩ := exists_of_follow h
    exact not_nothingFor_look hlook key

theorem executed?_isSome_iff (hcommand : command? jobs d.jobKey = .ok c) :
    (executed? platform jobs d stopped looks).isSome = true ↔
      ∀ progress, platform c (environment d) = .ok progress →
        ∃ k < looks, progress k ≠ .running ∨ stopped k = true := by
  simp only [executed?, hcommand]
  cases platform c (environment d) with
  | error fault => exact iff_of_true rfl nofun
  | ok progress =>
    rw [follow_isSome_iff]
    exact ⟨fun h progress' hsame => Except.ok.inj hsame ▸ h, fun h => h progress rfl⟩

example :
    let backup : Platform := fun _ _ => .ok fun
      | 0 => .running
      | _ => .ended ⟨.status 0, "copied\ndone\n".toUTF8.toList, []⟩
    let jobs := [("nightly", (⟨["backup", "--all"], none⟩ : Job))]
    let d : Dispatch := ⟨⟨"run-0-0000", by decide⟩, "nightly"⟩
    executed? backup jobs d (fun _ => false) 1 = none ∧
      executed? backup jobs d (fun _ => false) 2 = some ⟨true, "done"⟩ ∧
      executed? backup jobs d (fun _ => true) 2 = some ⟨false, "execution canceled"⟩ := by
  decide +kernel

end Jobs

/-! ## The queue -/

/-- How opening a queue ends that has a path when it needs one. -/
inductive Backend.Opens (q : QueueSettings) (storage : String → Storage) :
    Except QueueError Backend → Prop
  | opened {b : Backend} (hcapacity : b.live.capacity = q.capacity) : Opens q storage (.ok b)
  | unopened {path : String} (hpath : q.path = some path)
      (hstorage : storage path = .unopenable) : Opens q storage (.error (.unopened path))
  | noParent {path : String} (hpath : q.path = some path)
      (hstorage : storage path = .noParent) : Opens q storage (.error (.noParent path))

namespace Settings

variable {s : Settings}

theorem opens_of_queueFault? {q : QueueSettings} (h : queueFault? q = none)
    (storage : String → Storage) : Backend.Opens q storage (Backend.open? q storage) := by
  unfold queueFault? at h
  split_ifs at h with hcapacity _ _ hpath
  -- the capacity is only raised where there is none
  have hroom : max q.capacity 1 = q.capacity := max_eq_left (Nat.pos_of_ne_zero hcapacity)
  unfold Backend.open?
  cases hbackend : q.backend with
  | memory => exact .opened hroom
  | table =>
    cases hsome : q.path with
    | none => exact absurd (by simp [hbackend, hsome]) hpath
    | some path =>
      dsimp only
      cases hstorage : storage path with
      | usable => exact .opened hroom
      | fleeting => exact .opened hroom
      | unopenable => exact .unopened hsome hstorage
      | noParent => exact .noParent hsome hstorage

/-! ## Jobs -/

theorem isWord_of_jobFault? {key : String} {job : Job} (h : jobFault? key job = none) :
    Text.IsWord key.toList := by
  unfold jobFault? at h
  split_ifs at h with hkey _
  rw [Bool.or_eq_true, not_or] at hkey
  obtain ⟨hempty, hblank⟩ := hkey
  refine ⟨fun hnil => hempty (by rw [Text.isEmptyTrimmed, hnil]; rfl), fun c hc => ?_⟩
  exact Bool.eq_false_iff.2 fun hc' => hblank (List.any_eq_true.2 ⟨c, hc, hc'⟩)

theorem command_of_jobFault? {key : String} {job : Job} (h : jobFault? key job = none) :
    ∃ program args, job.command = program :: args ∧ Text.isEmptyTrimmed program = false := by
  unfold jobFault? at h
  split_ifs at h with _ hcommand
  cases hwords : job.command with
  | nil => exact absurd (by rw [hwords]; rfl) hcommand
  | cons program args =>
    rw [hwords] at hcommand
    exact ⟨program, args, rfl, Bool.eq_false_iff.2 hcommand⟩

theorem parse_run {key : String} (h : Text.IsWord key.toList) :
    Intent.parse ("run " ++ key) =
      { kind := .runJob, rawText := Text.trim ("run " ++ key), jobKey := some key } := by
  have hkind : IntentKind.ofCommand? "run".toList = some .runJob := rfl
  have hcommand : Text.IsWord "run".toList := Text.isWord_of_all rfl rfl
  have hspace : "run " = "run" ++ " " := by decide
  rw [hspace, Intent.parse_command hkind hcommand h]
  rfl

theorem lookup_of_mem {jobs : List (String × Job)} {key : String}
    (h : key ∈ jobs.map (·.1)) : ∃ job, jobs.lookup key = some job ∧ (key, job) ∈ jobs := by
  obtain ⟨entry, hentry, rfl⟩ := List.mem_map.1 h
  have hsome : (jobs.lookup entry.1).isSome = true :=
    List.lookup_isSome_iff.2 ⟨entry, hentry, beq_self_eq_true _⟩
  obtain ⟨job, hjob⟩ := Option.isSome_iff_exists.1 hsome
  obtain ⟨before, after, rfl, -⟩ := List.lookup_eq_some_iff.1 hjob
  exact ⟨job, hjob, List.mem_append_right _ List.mem_cons_self⟩

/-- A job of settings that can be used is found by its key, with its program. -/
theorem exists_command? (h : s.fault? = none) {key : String} (hkey : key ∈ s.jobs.map (·.1)) :
    ∃ job c, (key, job) ∈ s.jobs ∧ Jobs.command? s.jobs key = .ok c ∧
      job = ⟨c.program :: c.args, c.directory⟩ ∧ Text.isEmptyTrimmed c.program = false := by
  obtain ⟨job, hlookup, hjob⟩ := lookup_of_mem hkey
  obtain ⟨program, args, hcommand, hnamed⟩ :=
    command_of_jobFault? (jobFault?_eq_none h hjob)
  obtain ⟨command, directory⟩ := job
  obtain rfl : command = program :: args := hcommand
  exact ⟨_, ⟨program, args, directory⟩, hjob, by simp only [Jobs.command?, hlookup], rfl, hnamed⟩

/-! ## Waiting -/

theorem polls_of_workerFault? {w : WorkerSettings} (h : workerFault? w = none) :
    0 < (Polling.ofSettings w).shortest ∧
      (Polling.ofSettings w).shortest ≤ (Polling.ofSettings w).longest := by
  unfold workerFault? at h
  split_ifs at h with _ hpoll
  simp only [Bool.or_eq_true, decide_eq_true_eq, not_or] at hpoll
  exact ⟨Nat.mul_pos (Nat.pos_of_ne_zero hpoll.1) (by decide),
    Nat.mul_le_mul_right _ (Nat.le_max_right _ _)⟩

theorem renews_of_fault? (h : s.fault? = none) : 0 < (Crew.ofSettings s).heartbeat ∧
    3 * (Crew.ofSettings s).heartbeat ≤ (Crew.ofSettings s).lockTimeout := by
  have hthird : (Crew.ofSettings s).heartbeat ≤ (Crew.ofSettings s).lockTimeout / 3 :=
    heartbeatInterval_le (perSecond_le_lockTimeout h)
  exact ⟨heartbeatInterval_pos _, by omega⟩

/-! ## All of it -/

/-- Settings that serve everything that runs on them. -/
structure Sufficient (s : Settings) : Prop where
  /-- Every job can be asked for. -/
  asked : ∀ key ∈ s.jobs.map (·.1), Intent.parse ("run " ++ key) =
    { kind := .runJob, rawText := Text.trim ("run " ++ key), jobKey := some key }
  /-- Every job has a program, its own. -/
  programs : ∀ key ∈ s.jobs.map (·.1), ∃ job c, (key, job) ∈ s.jobs ∧
    Jobs.command? s.jobs key = .ok c ∧ job = ⟨c.program :: c.args, c.directory⟩ ∧
    Text.isEmptyTrimmed c.program = false
  /-- No execution ends for want of a job, whatever the platform. -/
  executed : ∀ platform (d : Dispatch), d.jobKey ∈ s.jobs.map (·.1) → ∀ stopped looks r,
    Jobs.executed? platform s.jobs d stopped looks = some r → ∀ key, ¬ Jobs.NothingFor key r
  /-- An execution is reported unless its program is running and the worker is not asked to
  stop. -/
  reported : ∀ platform (d : Dispatch), d.jobKey ∈ s.jobs.map (·.1) → ∀ stopped looks,
    ∃ c, Jobs.command? s.jobs d.jobKey = .ok c ∧
      ((Jobs.executed? platform s.jobs d stopped looks).isSome = true ↔
        ∀ progress, platform c (Jobs.environment d) = .ok progress →
          ∃ k < looks, progress k ≠ .running ∨ stopped k = true)
  /-- The queue opens when its path, if it needs one, can be used. -/
  opened : ∀ storage,
    (∀ path ∈ s.queue.path, storage path ≠ .unopenable ∧ storage path ≠ .noParent) →
      ∃ q, Backend.open? s.queue storage = .ok q
  configured : ∀ storage backend reason,
    Backend.open? s.queue storage ≠ .error (.misconfigured backend reason)
  roomy : ∀ storage q, Backend.open? s.queue storage = .ok q → q.live.capacity = s.queue.capacity
  polls : 0 < (Polling.ofSettings s.workers).shortest ∧
    (Polling.ofSettings s.workers).shortest ≤ (Polling.ofSettings s.workers).longest
  /-- A claim is renewed three times at least before it is stale. -/
  renews : 0 < (Crew.ofSettings s).heartbeat ∧
    3 * (Crew.ofSettings s).heartbeat ≤ (Crew.ofSettings s).lockTimeout

/-- Settings without a fault serve everything that runs on them. -/
theorem sufficient (h : s.fault? = none) : s.Sufficient where
  asked key hkey := by
    obtain ⟨job, -, hjob⟩ := lookup_of_mem hkey
    exact parse_run (isWord_of_jobFault? (jobFault?_eq_none h hjob))
  programs _ hkey := exists_command? h hkey
  executed _ _ hkey _ _ _ hreport := by
    obtain ⟨_, c, -, hcommand, -⟩ := exists_command? h hkey
    exact Jobs.not_nothingFor_executed hcommand hreport
  reported _ _ hkey _ _ := by
    obtain ⟨_, c, -, hcommand, -⟩ := exists_command? h hkey
    exact ⟨c, hcommand, Jobs.executed?_isSome_iff hcommand⟩
  opened storage hpath := by
    have hopens := opens_of_queueFault? (fault?_eq_none h).1 storage
    generalize Backend.open? s.queue storage = answer at hopens ⊢
    cases hopens with
    | opened _ => exact ⟨_, rfl⟩
    | unopened hsome hstorage => exact absurd hstorage (hpath _ hsome).1
    | noParent hsome hstorage => exact absurd hstorage (hpath _ hsome).2
  configured storage backend reason hopen := by
    have hopens := opens_of_queueFault? (fault?_eq_none h).1 storage
    rw [hopen] at hopens
    cases hopens
  roomy storage q hopen := by
    have hopens := opens_of_queueFault? (fault?_eq_none h).1 storage
    rw [hopen] at hopens
    cases hopens with
    | opened hcapacity => exact hcapacity
  polls := polls_of_workerFault? (fault?_eq_none h).2.1
  renews := renews_of_fault? h

/-- The largest numbers that settings can hold where they are limits, and the smallest where
they are times.  The program of the job prints two lines and ends. -/
theorem sufficient_extreme :
    let s : Settings :=
      { queue := ⟨.table, 18446744073709551615, some "queue.db", 1, 1⟩
        workers := ⟨1, 1, 18446744073709551615⟩
        approval := ⟨false, ["ada"]⟩
        jobs := [("nightly-backup", ⟨["backup", "--nightly"], none⟩)] }
    let platform : Jobs.Platform := fun _ _ => .ok fun
      | 0 => .running
      | _ => .ended ⟨.status 0, "copied\ndone\n".toUTF8.toList, []⟩
    let d : Dispatch := ⟨⟨"run-0-0000", by decide⟩, "nightly-backup"⟩
    let done : Report := ⟨true, "done"⟩
    s.fault? = none ∧ s.Sufficient ∧
      Jobs.executed? platform s.jobs d (fun _ => false) 2 = some done ∧
      (∀ key, ¬ Jobs.NothingFor key done) ∧
      ∃ q, Backend.open? s.queue (fun _ => .usable) = .ok q ∧
        q.live.capacity = 18446744073709551615 := by
  intro s platform d done
  have hfault : s.fault? = none := by decide
  have hserves : s.Sufficient := sufficient hfault
  have hdone : Jobs.executed? platform s.jobs d (fun _ => false) 2 = some done := by
    decide +kernel
  obtain ⟨q, hopen⟩ := hserves.opened (fun _ => .usable) fun _ _ => ⟨nofun, nofun⟩
  exact ⟨hfault, hserves, hdone, hserves.executed platform d (by decide) _ _ _ hdone, q, hopen,
    hserves.roomy _ q hopen⟩

end Settings
end JobGate
