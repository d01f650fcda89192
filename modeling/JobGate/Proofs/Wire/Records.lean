/-
Records are read back from what is written for them.

A record gives each of its fields a value, `null` for a value that is not there.  An object shows a
record when its fields have these values, and then it is read as the record
(`RoundTrip.read_shown`): what is written shows the record, and so does an object that leaves out a
field whose value is the default, or that has its members in another order, or members that are no
field.

The other way, whatever is read as a record was read from texts and numbers that its fields allow,
so the record is written and read again as itself (`RoundTrip.read_again`).
-/
import JobGate.Proofs.Wire.Values

namespace JobGate
namespace Wire

/-! ## Records -/

class Record (α : Type) where
  toJson : α → Json
  ofJson : Json → Except Fault α
  /-- The fields with their values, written or not. -/
  values : α → List (String × Json)
  /-- The values of absent fields, for the fields that may be absent. -/
  defaults : List (String × Json)
  /-- The identifiers of runs in the record. -/
  runIds : α → List RunId
  /-- The numbers of the record are in the ranges of their fields. -/
  Fits : α → Prop

def ShowsRecord {α : Type} [Record α] (x : α) (members : List (String × Json)) : Prop :=
  (members.map Prod.fst).Nodup ∧ Shows (Record.defaults α) (Record.values x) members

/-- What makes reading and writing undo each other. -/
class LawfulRecord (α : Type) [Record α] : Prop where
  /-- What is written shows the record. -/
  written (x : α) : ∃ members, Record.toJson x = .obj members ∧ ShowsRecord x members
  /-- An object that shows a record is read as the record. -/
  read_shown (x : α) (h : Record.Fits x) (members : List (String × Json))
    (hshows : ShowsRecord x members) : Record.ofJson (.obj members) = .ok x
  /-- A record that is read is in range, and its identifiers are texts of the value that are
  valid. -/
  sound (j : Json) (x : α) (h : Record.ofJson j = .ok x) : Record.Fits x ∧
    ∀ id ∈ Record.runIds x, .str id.text ∈ parts j ∧ RunId.parse id.text = .ok id

/-- Reading and writing undo each other. -/
structure RoundTrip (α : Type) [Record α] : Prop where
  /-- What is written for a record is read as the record. -/
  read_written (x : α) (h : Record.Fits x) : Record.ofJson (Record.toJson x) = .ok x
  /-- So is every object that shows the record.  A field may be absent there when its value is the
  default, such as the `null` of a value that is not there. -/
  read_shown (x : α) (h : Record.Fits x) (members : List (String × Json))
    (hshows : ShowsRecord x members) : Record.ofJson (.obj members) = .ok x
  /-- The identifiers of a record that is read are texts of the value, and valid. -/
  identified (j : Json) (x : α) (h : Record.ofJson j = .ok x) :
    ∀ id ∈ Record.runIds x, .str id.text ∈ parts j ∧ RunId.parse id.text = .ok id
  /-- A record that is read is in range, and is read again from what is written for it. -/
  read_again (j : Json) (x : α) (h : Record.ofJson j = .ok x) :
    Record.Fits x ∧ Record.ofJson (Record.toJson x) = .ok x

theorem RoundTrip.of_lawful {α : Type} [Record α] [LawfulRecord α] : RoundTrip α := by
  have hwritten : ∀ x : α, Record.Fits x → Record.ofJson (Record.toJson x) = .ok x := by
    intro x hx
    obtain ⟨members, hwritten, hshows⟩ := LawfulRecord.written x
    rw [hwritten]
    exact LawfulRecord.read_shown x hx members hshows
  exact
    { read_written := hwritten
      read_shown := LawfulRecord.read_shown
      identified := fun j x h => (LawfulRecord.sound j x h).2
      read_again := fun j x h =>
        ⟨(LawfulRecord.sound j x h).1, hwritten x (LawfulRecord.sound j x h).1⟩ }

section Shown

variable {α : Type} [Record α] {x : α}

/-- A record is read from the values of its fields alone. -/
theorem read_of_shown {slots : List Slot} {members : List (String × Json)}
    {read : Fields → Except Fault α}
    (hslots : List.Forall₂ (Slot.Fits (Record.defaults α)) slots (Record.values x))
    (hshows : ShowsRecord x members)
    (hread : ∀ f, Shows (Record.defaults α) (Record.values x) f → read f = .ok x) :
    fields slots (.obj members) >>= read = .ok x := by
  obtain ⟨f, hf, hvalues⟩ := fields_of_shown hslots hshows.1 hshows.2
  exact (bind_of_ok hf read).trans (hread f hvalues)

/-- A record shows itself where every field is written. -/
theorem written_of_values (hjson : Record.toJson x = .obj (Record.values x))
    (hnodup : ((Record.values x).map Prod.fst).Nodup) :
    ∃ members, Record.toJson x = .obj members ∧ ShowsRecord x members := by
  refine ⟨Record.values x, hjson, hnodup, fun m hm => ?_⟩
  rw [fieldValue, lookup_of_mem hnodup hm, Option.some_or]

end Shown

end Wire

open Wire
open Wire.Fields (get_of_value getD_of_value getD_nullable)

/-! ## Intents and messages -/

namespace Intent

instance : Record Intent where
  toJson := toJson
  ofJson := ofJson
  values i :=
    [("type", .str i.kind.name), ("rawText", .str i.rawText),
      ("jobKey", Json.nullable .str i.jobKey), ("runId", Json.nullable .str i.run)]
  defaults := [("jobKey", .null), ("runId", .null)]
  runIds _ := []
  Fits _ := True

instance : LawfulRecord Intent where
  written i := by
    obtain ⟨kind, rawText, jobKey, run⟩ := i
    refine ⟨_, rfl, ?_, ?_⟩
    · cases jobKey <;> cases run <;> simp [Json.member?]
    · cases jobKey <;> cases run <;>
        simp [Shows, Record.values, Record.defaults, fieldValue, Json.member?, Json.nullable,
          List.lookup_cons]
  read_shown i _ members hshows := by
    have hslots : List.Forall₂ (Slot.Fits (Record.defaults Intent)) slots (Record.values i) :=
      .cons (slot_fits (intentKind_name _) fun _ => rfl) <|
      .cons (slot_fits (text_str _) fun _ => rfl) <|
      .cons (slot_fits (nullable_text _) nofun) <|
      .cons (slot_fits (nullable_text _) nofun) .nil
    refine read_of_shown hslots hshows fun f hvalues => ?_
    simp only [Shows, Record.values, List.forall_mem_cons] at hvalues
    obtain ⟨hkind, hrawText, hjobKey, hrun, -⟩ := hvalues
    refine (bind_of_ok (get_of_value hkind rfl (intentKind_name _)) _).trans ?_
    refine (bind_of_ok (get_of_value hrawText rfl (text_str _)) _).trans ?_
    refine (bind_of_ok (getD_nullable hjobKey rfl (nullable_text _)) _).trans ?_
    exact bind_of_ok (getD_nullable hrun rfl (nullable_text _)) _
  sound _ _ _ := ⟨trivial, List.forall_mem_nil _⟩

end Intent

namespace Inbound

instance : Record Inbound where
  toJson := toJson
  ofJson := ofJson
  values m :=
    [("channel", .str m.channel), ("from", .str m.sender),
      ("conversation", .str m.conversation), ("body", .str m.body),
      ("providerMessageId", Json.nullable .str m.providerId)]
  defaults := [("channel", .str defaultChannel), ("providerMessageId", .null)]
  runIds _ := []
  Fits _ := True

instance : LawfulRecord Inbound where
  written _ := written_of_values rfl
    (show ["channel", "from", "conversation", "body", "providerMessageId"].Nodup by decide)
  read_shown m _ members hshows := by
    have hslots : List.Forall₂ (Slot.Fits (Record.defaults Inbound)) slots (Record.values m) :=
      .cons (slot_fits (text_str _) nofun) <|
      .cons (slot_fits (text_str _) fun _ => rfl) <|
      .cons (slot_fits (text_str _) fun _ => rfl) <|
      .cons (slot_fits (text_str _) fun _ => rfl) <|
      .cons (slot_fits (nullable_text _) nofun) .nil
    refine read_of_shown hslots hshows fun f hvalues => ?_
    simp only [Shows, Record.values, List.forall_mem_cons] at hvalues
    obtain ⟨hchannel, hsender, hconversation, hbody, hprovider, -⟩ := hvalues
    refine (bind_of_ok (getD_of_value hchannel ⟨_, rfl, text_str _⟩ (text_str _)) _).trans ?_
    refine (bind_of_ok (get_of_value hsender rfl (text_str _)) _).trans ?_
    refine (bind_of_ok (get_of_value hconversation rfl (text_str _)) _).trans ?_
    refine (bind_of_ok (get_of_value hbody rfl (text_str _)) _).trans ?_
    exact bind_of_ok (getD_nullable hprovider rfl (nullable_text _)) _
  sound _ _ _ := ⟨trivial, List.forall_mem_nil _⟩

end Inbound

namespace Outbound

instance : Record Outbound where
  toJson := toJson
  ofJson := ofJson
  values m :=
    [("body", .str m.body), ("correlationId", .str m.correlationId),
      ("idempotencyKey", .str m.idempotencyKey), ("channelId", .str m.channel),
      ("conversation", .str m.conversation)]
  defaults := []
  runIds _ := []
  Fits _ := True

instance : LawfulRecord Outbound where
  written _ := written_of_values rfl
    (show ["body", "correlationId", "idempotencyKey", "channelId", "conversation"].Nodup by decide)
  read_shown m _ members hshows := by
    have hslots : List.Forall₂ (Slot.Fits (Record.defaults Outbound)) slots (Record.values m) :=
      .cons (slot_fits (text_str _) fun _ => rfl) <|
      .cons (slot_fits (text_str _) fun _ => rfl) <|
      .cons (slot_fits (text_str _) fun _ => rfl) <|
      .cons (slot_fits (text_str _) fun _ => rfl) <|
      .cons (slot_fits (text_str _) fun _ => rfl) .nil
    refine read_of_shown hslots hshows fun f hvalues => ?_
    simp only [Shows, Record.values, List.forall_mem_cons] at hvalues
    obtain ⟨hbody, hcorrelation, hkey, hchannel, hconversation, -⟩ := hvalues
    refine (bind_of_ok (get_of_value hbody rfl (text_str _)) _).trans ?_
    refine (bind_of_ok (get_of_value hcorrelation rfl (text_str _)) _).trans ?_
    refine (bind_of_ok (get_of_value hkey rfl (text_str _)) _).trans ?_
    refine (bind_of_ok (get_of_value hchannel rfl (text_str _)) _).trans ?_
    exact bind_of_ok (get_of_value hconversation rfl (text_str _)) _
  sound _ _ _ := ⟨trivial, List.forall_mem_nil _⟩

end Outbound

/-! ## Runs and events -/

namespace Run

instance : Record Run where
  toJson := toJson
  ofJson := ofJson
  values r :=
    [("runId", .str r.id.text), ("jobKey", .str r.jobKey), ("status", .str r.status.name),
      ("createdAt", ofInstant r.createdAt), ("requestedBy", .str r.requestedBy),
      ("channelId", .str r.channel), ("conversationId", .str r.conversation)]
  defaults := []
  runIds r := [r.id]
  Fits _ := True

instance : LawfulRecord Run where
  written _ := written_of_values rfl
    (show ["runId", "jobKey", "status", "createdAt", "requestedBy", "channelId",
      "conversationId"].Nodup by decide)
  read_shown r _ members hshows := by
    have hslots : List.Forall₂ (Slot.Fits (Record.defaults Run)) slots (Record.values r) :=
      .cons (slot_fits (runId_text _) fun _ => rfl) <|
      .cons (slot_fits (text_str _) fun _ => rfl) <|
      .cons (slot_fits (status_name _) fun _ => rfl) <|
      .cons (slot_fits (instant_ofInstant _) fun _ => rfl) <|
      .cons (slot_fits (text_str _) fun _ => rfl) <|
      .cons (slot_fits (text_str _) fun _ => rfl) <|
      .cons (slot_fits (text_str _) fun _ => rfl) .nil
    refine read_of_shown hslots hshows fun f hvalues => ?_
    simp only [Shows, Record.values, List.forall_mem_cons] at hvalues
    obtain ⟨hid, hjobKey, hstatus, hcreated, hrequested, hchannel, hconversation, -⟩ := hvalues
    refine (bind_of_ok (get_of_value hid rfl (runId_text _)) _).trans ?_
    refine (bind_of_ok (get_of_value hjobKey rfl (text_str _)) _).trans ?_
    refine (bind_of_ok (get_of_value hstatus rfl (status_name _)) _).trans ?_
    refine (bind_of_ok (get_of_value hcreated rfl (instant_ofInstant _)) _).trans ?_
    refine (bind_of_ok (get_of_value hrequested rfl (text_str _)) _).trans ?_
    refine (bind_of_ok (get_of_value hchannel rfl (text_str _)) _).trans ?_
    exact bind_of_ok (get_of_value hconversation rfl (text_str _)) _
  sound j r h := by
    obtain ⟨f, hf, h⟩ := bind_eq_ok.1 h
    obtain ⟨id, hid, h⟩ := bind_eq_ok.1 h
    obtain ⟨jobKey, -, h⟩ := bind_eq_ok.1 h
    obtain ⟨status, -, h⟩ := bind_eq_ok.1 h
    obtain ⟨createdAt, -, h⟩ := bind_eq_ok.1 h
    obtain ⟨requestedBy, -, h⟩ := bind_eq_ok.1 h
    obtain ⟨channel, -, h⟩ := bind_eq_ok.1 h
    obtain ⟨conversation, -, h⟩ := bind_eq_ok.1 h
    cases h
    exact ⟨trivial, List.forall_mem_singleton.2 (get_runId hf hid)⟩

end Run

namespace Event

instance : Record Event where
  toJson := toJson
  ofJson := ofJson
  values e :=
    [("runId", .str e.run.text), ("seq", .nat e.seq), ("type", .str e.kind.name),
      ("at", ofInstant e.time), ("actor", .str e.actor), ("payload", .obj e.payload)]
  defaults := [("payload", .obj [])]
  runIds e := [e.run]
  Fits e := e.seq ≤ maxUnsigned

instance : LawfulRecord Event where
  written _ := written_of_values rfl
    (show ["runId", "seq", "type", "at", "actor", "payload"].Nodup by decide)
  read_shown e h members hshows := by
    have hslots : List.Forall₂ (Slot.Fits (Record.defaults Event)) slots (Record.values e) :=
      .cons (slot_fits (runId_text _) fun _ => rfl) <|
      .cons (slot_fits (natural_nat h) fun _ => rfl) <|
      .cons (slot_fits (eventKind_name _) fun _ => rfl) <|
      .cons (slot_fits (instant_ofInstant _) fun _ => rfl) <|
      .cons (slot_fits (text_str _) fun _ => rfl) <|
      .cons (slot_fits (members_obj _) nofun) .nil
    refine read_of_shown hslots hshows fun f hvalues => ?_
    simp only [Shows, Record.values, List.forall_mem_cons] at hvalues
    obtain ⟨hrun, hseq, hkind, htime, hactor, hpayload, -⟩ := hvalues
    refine (bind_of_ok (get_of_value hrun rfl (runId_text _)) _).trans ?_
    refine (bind_of_ok (get_of_value hseq rfl (natural_nat h)) _).trans ?_
    refine (bind_of_ok (get_of_value hkind rfl (eventKind_name _)) _).trans ?_
    refine (bind_of_ok (get_of_value htime rfl (instant_ofInstant _)) _).trans ?_
    refine (bind_of_ok (get_of_value hactor rfl (text_str _)) _).trans ?_
    exact bind_of_ok (getD_of_value hpayload ⟨_, rfl, members_obj []⟩ (members_obj _)) _
  sound j e h := by
    obtain ⟨f, hf, h⟩ := bind_eq_ok.1 h
    obtain ⟨run, hrun, h⟩ := bind_eq_ok.1 h
    obtain ⟨seq, hseq, h⟩ := bind_eq_ok.1 h
    obtain ⟨kind, -, h⟩ := bind_eq_ok.1 h
    obtain ⟨time, -, h⟩ := bind_eq_ok.1 h
    obtain ⟨actor, -, h⟩ := bind_eq_ok.1 h
    obtain ⟨payload, -, h⟩ := bind_eq_ok.1 h
    cases h
    obtain ⟨v, -, hv⟩ := Fields.get_eq_ok hseq
    exact ⟨natural_le hv, List.forall_mem_singleton.2 (get_runId hf hrun)⟩

end Event

/-! ## Dispatches -/

namespace Dispatch

instance : Record Dispatch where
  toJson := toJson
  ofJson := ofJson
  values d := [("runId", .str d.run.text), ("jobKey", .str d.jobKey)]
  defaults := []
  runIds d := [d.run]
  Fits _ := True

instance : LawfulRecord Dispatch where
  written _ := written_of_values rfl (show ["runId", "jobKey"].Nodup by decide)
  read_shown d _ members hshows := by
    have hslots : List.Forall₂ (Slot.Fits (Record.defaults Dispatch)) slots (Record.values d) :=
      .cons (slot_fits (runId_text _) fun _ => rfl) <|
      .cons (slot_fits (text_str _) fun _ => rfl) .nil
    refine read_of_shown hslots hshows fun f hvalues => ?_
    simp only [Shows, Record.values, List.forall_mem_cons] at hvalues
    obtain ⟨hrun, hjobKey, -⟩ := hvalues
    refine (bind_of_ok (get_of_value hrun rfl (runId_text _)) _).trans ?_
    exact bind_of_ok (get_of_value hjobKey rfl (text_str _)) _
  sound j d h := by
    obtain ⟨f, hf, h⟩ := bind_eq_ok.1 h
    obtain ⟨run, hrun, h⟩ := bind_eq_ok.1 h
    obtain ⟨jobKey, -, h⟩ := bind_eq_ok.1 h
    cases h
    exact ⟨trivial, List.forall_mem_singleton.2 (get_runId hf hrun)⟩

end Dispatch

namespace QueuedDispatch

instance : Record QueuedDispatch where
  toJson := toJson
  ofJson := ofJson
  values d :=
    [("queueId", .int d.id), ("runId", .str d.run.text), ("jobKey", .str d.jobKey),
      ("attempts", .nat d.attempts)]
  defaults := []
  runIds d := [d.run]
  Fits d := IsSigned d.id ∧ d.attempts ≤ maxAttempts

instance : LawfulRecord QueuedDispatch where
  written _ := written_of_values rfl
    (show ["queueId", "runId", "jobKey", "attempts"].Nodup by decide)
  read_shown d h members hshows := by
    have hslots : List.Forall₂ (Slot.Fits (Record.defaults QueuedDispatch)) slots
        (Record.values d) :=
      .cons (slot_fits (signed_int h.1) fun _ => rfl) <|
      .cons (slot_fits (runId_text _) fun _ => rfl) <|
      .cons (slot_fits (text_str _) fun _ => rfl) <|
      .cons (slot_fits (natural_nat h.2) fun _ => rfl) .nil
    refine read_of_shown hslots hshows fun f hvalues => ?_
    simp only [Shows, Record.values, List.forall_mem_cons] at hvalues
    obtain ⟨hid, hrun, hjobKey, hattempts, -⟩ := hvalues
    refine (bind_of_ok (get_of_value hid rfl (signed_int h.1)) _).trans ?_
    refine (bind_of_ok (get_of_value hrun rfl (runId_text _)) _).trans ?_
    refine (bind_of_ok (get_of_value hjobKey rfl (text_str _)) _).trans ?_
    exact bind_of_ok (get_of_value hattempts rfl (natural_nat h.2)) _
  sound j d h := by
    obtain ⟨f, hf, h⟩ := bind_eq_ok.1 h
    obtain ⟨id, hid, h⟩ := bind_eq_ok.1 h
    obtain ⟨run, hrun, h⟩ := bind_eq_ok.1 h
    obtain ⟨jobKey, -, h⟩ := bind_eq_ok.1 h
    obtain ⟨attempts, hattempts, h⟩ := bind_eq_ok.1 h
    cases h
    obtain ⟨v, -, hv⟩ := Fields.get_eq_ok hid
    obtain ⟨w, -, hw⟩ := Fields.get_eq_ok hattempts
    exact ⟨⟨isSigned_of_signed hv, natural_le hw⟩, List.forall_mem_singleton.2 (get_runId hf hrun)⟩

end QueuedDispatch

/-! ## Health -/

namespace WorkerHealth

instance : Record WorkerHealth where
  toJson := toJson
  ofJson := ofJson
  values h :=
    [("state", .str h.state.name), ("lastError", Json.nullable .str h.lastError),
      ("lastErrorAt", Json.nullable .int h.lastErrorAt), ("errorCount", .nat h.errorCount),
      ("startedAt", Json.nullable .int h.startedAt), ("stoppedAt", Json.nullable .int h.stoppedAt)]
  defaults :=
    [("lastError", .null), ("lastErrorAt", .null), ("startedAt", .null), ("stoppedAt", .null)]
  runIds _ := []
  Fits h := (∀ time ∈ h.lastErrorAt, IsSigned time) ∧ h.errorCount ≤ maxUnsigned ∧
    (∀ time ∈ h.startedAt, IsSigned time) ∧ ∀ time ∈ h.stoppedAt, IsSigned time

instance : LawfulRecord WorkerHealth where
  written _ := written_of_values rfl
    (show ["state", "lastError", "lastErrorAt", "errorCount", "startedAt",
      "stoppedAt"].Nodup by decide)
  read_shown h hfits members hshows := by
    obtain ⟨herrorFits, hcountFits, hstartFits, hstopFits⟩ := hfits
    have hslots : List.Forall₂ (Slot.Fits (Record.defaults WorkerHealth)) slots
        (Record.values h) :=
      .cons (slot_fits (workerState_name _) fun _ => rfl) <|
      .cons (slot_fits (nullable_text _) nofun) <|
      .cons (slot_fits (nullable_signed herrorFits) nofun) <|
      .cons (slot_fits (natural_nat hcountFits) fun _ => rfl) <|
      .cons (slot_fits (nullable_signed hstartFits) nofun) <|
      .cons (slot_fits (nullable_signed hstopFits) nofun) .nil
    refine read_of_shown hslots hshows fun f hvalues => ?_
    simp only [Shows, Record.values, List.forall_mem_cons] at hvalues
    obtain ⟨hstate, herror, herrorAt, hcount, hstart, hstop, -⟩ := hvalues
    refine (bind_of_ok (get_of_value hstate rfl (workerState_name _)) _).trans ?_
    refine (bind_of_ok (getD_nullable herror rfl (nullable_text _)) _).trans ?_
    refine (bind_of_ok (getD_nullable herrorAt rfl (nullable_signed herrorFits)) _).trans ?_
    refine (bind_of_ok (get_of_value hcount rfl (natural_nat hcountFits)) _).trans ?_
    refine (bind_of_ok (getD_nullable hstart rfl (nullable_signed hstartFits)) _).trans ?_
    exact bind_of_ok (getD_nullable hstop rfl (nullable_signed hstopFits)) _
  sound j health h := by
    obtain ⟨f, -, h⟩ := bind_eq_ok.1 h
    obtain ⟨state, -, h⟩ := bind_eq_ok.1 h
    obtain ⟨lastError, -, h⟩ := bind_eq_ok.1 h
    obtain ⟨lastErrorAt, herrorAt, h⟩ := bind_eq_ok.1 h
    obtain ⟨errorCount, hcount, h⟩ := bind_eq_ok.1 h
    obtain ⟨startedAt, hstart, h⟩ := bind_eq_ok.1 h
    obtain ⟨stoppedAt, hstop, h⟩ := bind_eq_ok.1 h
    cases h
    obtain ⟨v, -, hv⟩ := Fields.get_eq_ok hcount
    exact ⟨⟨isSigned_of_nullable herrorAt, natural_le hv, isSigned_of_nullable hstart,
      isSigned_of_nullable hstop⟩, List.forall_mem_nil _⟩

end WorkerHealth

/-! ## Every record -/

theorem records_round_trip :
    RoundTrip Intent ∧ RoundTrip Inbound ∧ RoundTrip Outbound ∧ RoundTrip Run ∧ RoundTrip Event ∧
      RoundTrip Dispatch ∧ RoundTrip QueuedDispatch ∧ RoundTrip WorkerHealth :=
  ⟨.of_lawful, .of_lawful, .of_lawful, .of_lawful, .of_lawful, .of_lawful, .of_lawful, .of_lawful⟩

/-- An event at the end of a leap second before the year 0, with the highest number. -/
def leapEvent : Event where
  run := ⟨"run-1", by decide⟩
  seq := maxUnsigned
  kind := .started
  time := ⟨-62167219201, 1999999999, by decide, by decide, by decide⟩
  actor := "worker \"1\"\n"
  payload := [("note", .arr [.null, .number (.decimal true 15 (-1))])]

/-- What is written, an object with members out of order, absent or unknown, and an array. -/
theorem records_round_trip_instances :
    Event.ofJson leapEvent.toJson = .ok leapEvent ∧
    WorkerHealth.ofJson (.obj [("errorCount", .nat 0), ("extra", .null), ("lastError", .null),
      ("state", .str "stopped")]) = .ok {} ∧
    RunId.parse "run-1" = .ok leapEvent.run ∧
    Dispatch.ofJson (Dispatch.toJson ⟨leapEvent.run, "backup"⟩) =
      .ok ⟨leapEvent.run, "backup"⟩ := by
  obtain ⟨-, -, -, -, hevent, hdispatch, -, hhealth⟩ := records_round_trip
  have harray : Dispatch.ofJson (.arr [.str "run-1", .str "backup"]) =
      .ok ⟨leapEvent.run, "backup"⟩ := rfl
  have hfits : Record.Fits leapEvent := Nat.le_refl maxUnsigned
  have hidle : Record.Fits ({} : WorkerHealth) := ⟨nofun, Nat.zero_le _, nofun, nofun⟩
  refine ⟨hevent.read_written _ hfits, hhealth.read_shown _ hidle _ ⟨by decide, ?_⟩,
    (hdispatch.identified _ _ harray _ List.mem_cons_self).2, (hdispatch.read_again _ _ harray).2⟩
  simp [Shows, Record.values, Record.defaults, fieldValue, List.lookup_cons, Json.nullable,
    WorkerState.name]

end JobGate
