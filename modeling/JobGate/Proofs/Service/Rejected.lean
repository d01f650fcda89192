/-
Lines that are rejected have no effect on anything else.

A line is rejected whatever the desk when there is nothing in it, when it is no message, or
when its message lacks a field (`Console.Rejected`).  Such a line leaves the whole desk as
it is, random source and receipt numbers included (`Desk.hear_rejected`), so a desk at which
such lines come in, anywhere between the others, is the desk at which they do not, and the
other lines fare the same (`Desk.follow_filter`).

What happens at a desk is laid down by a list of occasions: each is a line or a step of a
worker, at a clock of its own, and says who takes steps while the message of a line waits
for room.  `Desk.run`, by which a channel is served, is the case of one clock and one helper
(`Desk.run_eq_follow`).
-/
import JobGate.Proofs.Queue.Backpressure
import JobGate.Service.Serve

namespace JobGate

/-- A line that is rejected whatever the desk, with what becomes of it. -/
inductive Console.Rejected (text : String) : LineOutcome → Prop
  | blank (h : read? text = none) : Rejected text .blank
  | unreadable {fault : Wire.Fault} (h : read? text = some (.error fault)) :
      Rejected text (.unreadable fault)
  | incomplete {m : Inbound} {field : Inbound.Field} (h : read? text = some (.ok m))
      (hfield : m.blankField? = some field) : Rejected text (.refused (.blank field))

def Console.hasText (text : String) : Bool := !(Text.trim text).isEmpty

theorem Console.read?_isSome (text : String) : (read? text).isSome = hasText text := by
  unfold read? hasText
  dsimp only
  cases (Text.trim text).isEmpty
  · simp only [Bool.false_eq_true, if_false, Bool.not_false]
    split <;> rfl
  · rfl

/-- A rejected line counts as received and as rejected when there is something in it. -/
theorem Console.Rejected.counts {text : String} {outcome : LineOutcome}
    (h : Rejected text outcome) :
    outcome.received = hasText text ∧ outcome.rejected = hasText text := by
  rw [← read?_isSome]
  cases h with
  | blank h => rw [h]; exact ⟨rfl, rfl⟩
  | unreadable h => rw [h]; exact ⟨rfl, rfl⟩
  | incomplete h _ => rw [h]; exact ⟨rfl, rfl⟩

structure Occasion (Q ι : Type) where
  /-- What tells it from other occasions. -/
  label : ι
  happening : Happening
  conditions : Conditions
  /-- Who takes steps while the message of a line waits for room. -/
  helpers : Desk Q → List String

namespace Occasion

variable {Q ι : Type}

def hasText (o : Occasion Q ι) : Bool :=
  match o.happening with
  | .line text => Console.hasText text
  | .work _ => false

def Rejected (o : Occasion Q ι) : Prop :=
  ∃ text outcome, o.happening = .line text ∧ Console.Rejected text outcome

end Occasion

namespace Desk

variable {Q ι : Type} [ExecutionQueue Q]

/-- Goes on with a message, letting the helpers take a step each while there is no room
for it. -/
def pursue (c : Conditions) : List String → Intake → Desk Q → Intake × Desk Q
  | helpers, i, d =>
    match i.settle c.clock false d.site with
    | (.enqueuing outcome dispatch, site) =>
      match helpers with
      | helper :: rest =>
        pursue c rest (.enqueuing outcome dispatch) ({ d with site }.work c helper)
      | [] => (.enqueuing outcome dispatch, { d with site })
    | (i, site) => (i, { d with site })

def hear (c : Conditions) (helpers : List String) (text : String) (d : Desk Q) :
    LineOutcome × Desk Q :=
  match Console.read? text with
  | none => (.blank, d)
  | some (.error fault) => (.unreadable fault, d)
  | some (.ok m) =>
    let (i, site, draws) := Intake.take d.site c.clock.still d.draws m
    match pursue c helpers i { d with site, draws } with
    | (.done (.ok outcome), d) => (.taken outcome, d)
    | (.done (.error e), d) => (.refused e, d)
    | (_, d) => (.stuck, d)

def follow : List (Occasion Q ι) → Desk Q → List (ι × LineOutcome) × Desk Q
  | [], d => ([], d)
  | o :: rest, d =>
    match o.happening with
    | .work worker => follow rest (d.work o.conditions worker)
    | .line text =>
      let (outcome, d) := d.hear o.conditions (o.helpers d) text
      let (outcomes, d) := follow rest d
      ((o.label, outcome) :: outcomes, d)

/-! ## Serving a channel as a schedule -/

def helpersOf (worker : Option String) (d : Desk Q) : List String :=
  worker.toList.flatMap (List.replicate d.stepsLeft)

theorem settle_eq_pursue (c : Conditions) (worker : Option String) (steps : Nat) (i : Intake)
    (d : Desk Q) :
    d.settle c worker steps i = d.pursue c (worker.toList.flatMap (List.replicate steps)) i := by
  induction steps generalizing i d with
  | zero =>
    unfold settle pursue
    generalize i.settle c.clock false d.site = r
    obtain ⟨i, site⟩ := r
    cases i <;> cases worker <;> rfl
  | succ steps ih =>
    unfold settle pursue
    generalize i.settle c.clock false d.site = r
    obtain ⟨i, site⟩ := r
    cases i with
    | enqueuing outcome dispatch =>
      cases worker with
      | none => rfl
      | some worker => exact ih _ _
    | abandoning _ _ _ | answering _ | done _ => cases worker <;> rfl

theorem readLine_eq_hear (c : Conditions) (worker : Option String) (text : String) (d : Desk Q) :
    d.readLine c worker text = d.hear c (helpersOf worker d) text := by
  unfold readLine hear receive
  simp only [settle_eq_pursue]
  rfl

/-- What happens while a channel is served, with labels, as occasions with one clock and one
helper. -/
def served (c : Conditions) (worker : Option String) (hs : List (ι × Happening)) :
    List (Occasion Q ι) := hs.map fun h => ⟨h.1, h.2, c, helpersOf worker⟩

theorem served_cons (c : Conditions) (worker : Option String) (h : ι × Happening)
    (hs : List (ι × Happening)) :
    served (Q := Q) c worker (h :: hs) = ⟨h.1, h.2, c, helpersOf worker⟩ :: served c worker hs :=
  rfl

theorem run_eq_follow (c : Conditions) (worker : Option String) (hs : List (ι × Happening))
    (d : Desk Q) : d.run c worker (hs.map (·.2)) =
      ((d.follow (served c worker hs)).1.map (·.2), (d.follow (served c worker hs)).2) := by
  induction hs generalizing d with
  | nil => rfl
  | cons h rest ih =>
    obtain ⟨label, text | w⟩ := h
    · simp only [List.map_cons, run, readLine_eq_hear, ih, served_cons, follow]
    · exact ih _

/-! ## Rejected lines -/

theorem hear_rejected {text : String} {outcome : LineOutcome} (h : Console.Rejected text outcome)
    (c : Conditions) (helpers : List String) (d : Desk Q) :
    d.hear c helpers text = (outcome, d) := by
  cases h with
  | blank h => simp only [hear, h]
  | unreadable h => simp only [hear, h]
  | @incomplete m field h hfield =>
    -- the message is dealt with at once, so there is nothing to go on with
    have htake : Intake.take d.site c.clock.still d.draws m =
        (.done (.error (.blank field)), d.site, d.draws) := by simp only [Intake.take, hfield]
    simp only [hear, h, htake]
    unfold pursue
    rfl

variable {inserted : ι → Bool} {os : List (Occasion Q ι)}

/-- Where only rejected lines are inserted, the desk ends as it does without them, and so do the
other lines. -/
theorem follow_filter (h : ∀ o ∈ os, inserted o.label = true → o.Rejected) (d : Desk Q) :
    (d.follow os).2 = (d.follow (os.filter (!inserted ·.label))).2 ∧
      (d.follow os).1.filter (!inserted ·.1) = (d.follow (os.filter (!inserted ·.label))).1 := by
  induction os generalizing d with
  | nil => exact ⟨rfl, rfl⟩
  | cons o rest ih =>
    have hrest := ih fun o ho => h o (List.mem_cons_of_mem _ ho)
    cases hinserted : inserted o.label with
    | true =>
      obtain ⟨text, outcome, hline, hrejected⟩ := h o List.mem_cons_self hinserted
      rw [List.filter_cons_of_neg (by simp [hinserted])]
      simp only [follow, hline, hear_rejected hrejected]
      rw [List.filter_cons_of_neg (by simp [hinserted])]
      exact hrest d
    | false =>
      rw [List.filter_cons_of_pos (by simp [hinserted])]
      unfold follow
      cases hhappens : o.happening with
      | work worker => exact hrest _
      | line text =>
        obtain ⟨hdesk, hothers⟩ := hrest (d.hear o.conditions (o.helpers d) text).2
        simp only
        rw [List.filter_cons_of_pos (by simp [hinserted]), hothers]
        exact ⟨hdesk, rfl⟩

/-- The inserted lines count when there is something in them. -/
theorem countP_inserted (h : ∀ o ∈ os, inserted o.label = true → o.Rejected)
    {p : LineOutcome → Bool}
    (hp : ∀ text outcome, Console.Rejected text outcome → p outcome = Console.hasText text)
    (d : Desk Q) :
    ((d.follow os).1.filter (inserted ·.1)).countP (p ·.2) =
      os.countP fun o => inserted o.label && o.hasText := by
  induction os generalizing d with
  | nil => rfl
  | cons o rest ih =>
    have hrest := ih fun o ho => h o (List.mem_cons_of_mem _ ho)
    rw [List.countP_cons]
    unfold follow
    cases hinserted : inserted o.label with
    | true =>
      obtain ⟨text, outcome, hline, hrejected⟩ := h o List.mem_cons_self hinserted
      simp only [hline, hear_rejected hrejected]
      rw [List.filter_cons_of_pos (by simp [hinserted]), List.countP_cons, hrest]
      simp only [hp text outcome hrejected, Occasion.hasText, hline, Bool.true_and]
    | false =>
      simp only [Bool.false_and, Bool.false_eq_true, if_false, Nat.add_zero]
      cases hhappens : o.happening with
      | work worker => exact hrest _
      | line text =>
        simp only
        rw [List.filter_cons_of_neg (by simp [hinserted])]
        exact hrest _

/-- The lines that were received or rejected are those among the others and the inserted ones
with something in them. -/
theorem tally_follow (h : ∀ o ∈ os, inserted o.label = true → o.Rejected) (d : Desk Q) :
    Tally.ofOutcomes ((d.follow os).1.map (·.2)) =
      let others := Tally.ofOutcomes ((d.follow (os.filter (!inserted ·.label))).1.map (·.2))
      let added := os.countP fun o => inserted o.label && o.hasText
      ⟨others.received + added, others.rejected + added⟩ := by
  have hcount : ∀ p : LineOutcome → Bool,
      (∀ text outcome, Console.Rejected text outcome → p outcome = Console.hasText text) →
      ((d.follow os).1.map (·.2)).countP p =
        ((d.follow (os.filter (!inserted ·.label))).1.map (·.2)).countP p +
          os.countP fun o => inserted o.label && o.hasText := by
    intro p hp
    rw [List.countP_map, List.countP_map, ← (follow_filter h d).2,
      List.countP_eq_countP_filter_add _ _ (inserted ·.1), Nat.add_comm]
    exact congrArg (_ + ·) (countP_inserted h hp d)
  show Tally.mk _ _ = Tally.mk _ _
  rw [hcount (·.received) fun _ _ hrejected => hrejected.counts.1,
    hcount (·.rejected) fun _ _ hrejected => hrejected.counts.2]
  rfl

/-- The desk and the other lines are as if the inserted lines had not come in.  Only those that
have something in them are counted, as received and as rejected. -/
structure Ignores (inserted : ι → Bool) (os : List (Occasion Q ι)) (d : Desk Q) : Prop where
  desk : (d.follow os).2 = (d.follow (os.filter (!inserted ·.label))).2
  outcomes : (d.follow os).1.filter (!inserted ·.1) = (d.follow (os.filter (!inserted ·.label))).1
  tally : Tally.ofOutcomes ((d.follow os).1.map (·.2)) =
    let others := Tally.ofOutcomes ((d.follow (os.filter (!inserted ·.label))).1.map (·.2))
    let added := os.countP fun o => inserted o.label && o.hasText
    ⟨others.received + added, others.rejected + added⟩

theorem ignores_rejected (h : ∀ o ∈ os, inserted o.label = true → o.Rejected) (d : Desk Q) :
    d.Ignores inserted os :=
  ⟨(follow_filter h d).1, (follow_filter h d).2, tally_follow h d⟩

/-! ## Channels with rejected lines in them -/

theorem length_texts (lines : List (Option String)) :
    ((lines.takeWhile (·.isSome)).filterMap id).length = lines.length ↔
      ∀ line ∈ lines, line.isSome = true := by
  induction lines with
  | nil => simp
  | cons line rest ih =>
    cases line with
    | none => simp
    | some text => simpa using ih

def happenings (lines : List (Bool × Option String)) : List (Bool × Happening) :=
  (lines.takeWhile (·.2.isSome)).filterMap fun x => x.2.map fun text => (x.1, .line text)

theorem texts_eq_happenings (lines : List (Bool × Option String)) :
    (((lines.map (·.2)).takeWhile (·.isSome)).filterMap id).map Happening.line =
      (happenings lines).map (·.2) := by
  induction lines with
  | nil => rfl
  | cons x rest ih =>
    obtain ⟨mark, line⟩ := x
    cases line with
    | none => rfl
    | some text => exact congrArg (Happening.line text :: ·) ih

variable {lines : List (Bool × Option String)}

theorem happenings_filter
    (h : ∀ x ∈ lines, x.1 = true →
      ∃ text outcome, x.2 = some text ∧ Console.Rejected text outcome) :
    happenings (lines.filter (!·.1)) = (happenings lines).filter (!·.1) := by
  induction lines with
  | nil => rfl
  | cons x rest ih =>
    have hrest := ih fun y hy => h y (List.mem_cons_of_mem _ hy)
    obtain ⟨mark, line⟩ := x
    cases mark with
    | true =>
      obtain ⟨text, outcome, hline, -⟩ := h _ List.mem_cons_self rfl
      cases hline
      exact hrest
    | false =>
      cases line with
      | none => rfl
      | some text => exact congrArg ((false, Happening.line text) :: ·) hrest

theorem countP_served (hall : ∀ x ∈ lines, x.2.isSome = true) (c : Conditions)
    (worker : Option String) :
    (served (Q := Q) c worker (happenings lines)).countP (fun o => o.label && o.hasText) =
      lines.countP fun x => x.1 && x.2.any Console.hasText := by
  induction lines with
  | nil => rfl
  | cons x rest ih =>
    obtain ⟨mark, line⟩ := x
    obtain ⟨text, rfl⟩ := Option.isSome_iff_exists.1 (hall _ List.mem_cons_self)
    have hrest := ih fun y hy => hall y (List.mem_cons_of_mem _ hy)
    rw [List.countP_cons, ← hrest]
    exact List.countP_cons ..

theorem rejected_of_served
    (h : ∀ x ∈ lines, x.1 = true → ∃ text outcome, x.2 = some text ∧ Console.Rejected text outcome)
    {c : Conditions} {worker : Option String} :
    ∀ o ∈ served (Q := Q) c worker (happenings lines), o.label = true → o.Rejected := by
  intro o ho hlabel
  obtain ⟨⟨mark, happening⟩, hmem, rfl⟩ := List.mem_map.1 ho
  obtain ⟨⟨mark', line⟩, hline, hx⟩ := List.mem_filterMap.1 hmem
  obtain ⟨text, rfl, heq⟩ := Option.map_eq_some_iff.1 hx
  cases heq
  obtain ⟨_, outcome, heq, hrejected⟩ := h _ (List.takeWhile_subset _ hline) hlabel
  cases heq
  exact ⟨text, outcome, rfl, hrejected⟩

/-- Serving a channel delivers what serving it without the marked lines delivers.  Only those that
have something in them are counted, as received and as rejected. -/
structure ServesOthers (c : Conditions) (worker : Option String)
    (lines : List (Bool × Option String)) (d : Desk Backend) : Prop where
  delivered : (d.serveLines c worker (lines.map (·.2))).delivered =
    (d.serveLines c worker ((lines.filter (!·.1)).map (·.2))).delivered
  result : (d.serveLines c worker (lines.map (·.2))).result =
    let added := lines.countP fun x => x.1 && x.2.any Console.hasText
    (d.serveLines c worker ((lines.filter (!·.1)).map (·.2))).result.map fun t =>
      ⟨t.received + added, t.rejected + added⟩

theorem serves_others
    (h : ∀ x ∈ lines, x.1 = true → ∃ text outcome, x.2 = some text ∧ Console.Rejected text outcome)
    (c : Conditions) (worker : Option String) (d : Desk Backend) :
    d.ServesOthers c worker lines := by
  have hos : ∀ o ∈ served c worker (happenings lines), o.label = true →
      Occasion.Rejected (Q := Backend) o := rejected_of_served h
  have hothers : served (Q := Backend) c worker (happenings (lines.filter (!·.1))) =
      (served c worker (happenings lines)).filter (!id ·.label) := by
    rw [happenings_filter h]
    show List.map _ (List.filter _ _) = List.filter _ (List.map _ _)
    rw [List.filter_map]
    rfl
  obtain ⟨hdesk, -, htally⟩ : d.Ignores id (served c worker (happenings lines)) :=
    ignores_rejected hos d
  suffices hserves : _ ∧ _ from ⟨hserves.1, hserves.2⟩
  simp only [serveLines, texts_eq_happenings, run_eq_follow, hothers]
  by_cases hall : ∀ x ∈ lines, x.2.isSome = true
  · have hadded : (served c worker (happenings lines)).countP
        (fun o : Occasion Backend Bool => id o.label && o.hasText) = _ :=
      countP_served hall c worker
    rw [hadded] at htally
    rw [if_pos ((length_texts _).2 ?_), if_pos ((length_texts _).2 ?_), hdesk, htally]
    · exact ⟨rfl, rfl⟩
    · exact List.forall_mem_map.2 fun x hx => hall x (List.mem_filter.1 hx).1
    · exact List.forall_mem_map.2 hall
  · -- the first line that is no text is not an inserted one
    obtain ⟨x, hx⟩ := Classical.not_forall.1 hall
    obtain ⟨hx, hnone⟩ := Classical.not_imp.1 hx
    have hmark : x.1 = false := by
      cases hmark : x.1 with
      | false => rfl
      | true =>
        obtain ⟨text, outcome, hline, -⟩ := h x hx hmark
        rw [hline] at hnone
        exact absurd rfl hnone
    rw [if_neg fun hlength => hnone ((length_texts _).1 hlength _ (List.mem_map_of_mem hx)),
      if_neg fun hlength => hnone ((length_texts _).1 hlength _
        (List.mem_map_of_mem (List.mem_filter.2 ⟨hx, by simp [hmark]⟩))), hdesk]
    exact ⟨rfl, rfl⟩

end Desk

/-- Inserting rejected lines, anywhere among what happens at a desk, changes nothing about the
other lines and the desk, whoever takes which steps meanwhile; nor does it when a channel is
served, from the first line to the last delivery. -/
theorem rejected_lines_have_no_effect :
    (∀ (Q ι : Type) [ExecutionQueue Q] (inserted : ι → Bool) (os : List (Occasion Q ι)),
      (∀ o ∈ os, inserted o.label = true → o.Rejected) → ∀ d : Desk Q, d.Ignores inserted os) ∧
    ∀ lines : List (Bool × Option String),
      (∀ x ∈ lines, x.1 = true →
        ∃ text outcome, x.2 = some text ∧ Console.Rejected text outcome) →
      ∀ (c : Conditions) (worker : Option String) (d : Desk Backend),
        d.ServesOthers c worker lines :=
  ⟨fun _ _ _ _ _ h d => d.ignores_rejected h, fun _ h c worker d => d.serves_others h c worker⟩

def anonymous : String :=
  "\x7b\"from\":\" \",\"conversation\":\"ops\",\"body\":\"run backup\"\x7d"

/-- A blank line, one that is no message and one that names no sender come between a request
and the decision on it. -/
theorem rejected_lines_have_no_effect_between :
    let lines := [(false, some "run backup"), (true, some " "), (true, some "\x7b"),
      (true, some anonymous), (false, some "yes run-0-0000")]
    let c : Conditions := ⟨default, fun _ => ⟨true, "completed"⟩⟩
    let d : Desk Backend :=
      { site := ⟨.new .requesterOnly, .new .memory 1, {}⟩, draws := ⟨fun _ => some 0, 0⟩ }
    d.ServesOthers c (some "worker-1") lines ∧
      d.Ignores id (Desk.served c (some "worker-1") (Desk.happenings lines)) := by
  intro lines c d
  have hrejected : ∀ x ∈ lines, x.1 = true →
      ∃ text outcome, x.2 = some text ∧ Console.Rejected text outcome := by
    intro x hx hmarked
    simp only [lines, List.mem_cons, List.not_mem_nil, or_false] at hx
    rcases hx with rfl | rfl | rfl | rfl | rfl
    · cases hmarked
    · exact ⟨_, _, rfl, .blank (by rfl)⟩
    · exact ⟨_, _, rfl, .unreadable (by rfl)⟩
    · exact ⟨_, _, rfl, .incomplete (by rfl) (by rfl)⟩
    · cases hmarked
  exact ⟨rejected_lines_have_no_effect.2 lines hrejected c (some "worker-1") d,
    rejected_lines_have_no_effect.1 Backend Bool id _ (Desk.rejected_of_served hrejected) d⟩

end JobGate
