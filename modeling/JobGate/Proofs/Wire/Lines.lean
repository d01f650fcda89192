/-
Messages delivered as lines are read back line by line.

The text of a message holds no line feed and ends in a bracket, so the text of a delivery falls into
lines exactly where one message ends (`Text.lines_terminated`), and each line is the text of an
object of texts, which is read back whole (`Outbound.ofText_compact`).
-/
import JobGate.Proofs.Json.Text
import JobGate.Proofs.Wire.Records
import JobGate.Text.Lines

namespace JobGate

/-! ## Lines -/

namespace Text

theorem linesFrom_append {cs : List Char} (h : '\n' ∉ cs) (line : List Char)
    (done : List (List Char)) (rest : List Char) :
    linesFrom line done (cs ++ rest) = linesFrom (cs.reverse ++ line) done rest := by
  induction cs generalizing line with
  | nil => rfl
  | cons c cs ih =>
    rw [List.mem_cons, not_or] at h
    rw [List.cons_append, linesFrom, if_neg (Ne.symm h.1), ih h.2, List.reverse_cons,
      List.append_assoc, List.singleton_append]

theorem dropReturn_concat {c : Char} (h : c ≠ '\r') (cs : List Char) :
    dropReturn (cs ++ [c]) = cs ++ [c] := by
  unfold dropReturn
  rw [List.reverse_append, List.reverse_singleton, List.singleton_append]
  split
  case h_1 heq => exact absurd (List.cons.inj heq).1 h
  case h_2 => rfl

/-- A line that can be told from what follows it: no line feed in it, and no return at its end. -/
structure IsLine (l : List Char) : Prop where
  plain : '\n' ∉ l
  kept : dropReturn l = l

theorem linesFrom_terminated {ls : List (List Char)} (h : ∀ l ∈ ls, IsLine l)
    (done : List (List Char)) :
    linesFrom [] done (ls.flatMap (· ++ ['\n'])) = done.reverse ++ ls := by
  induction ls generalizing done with
  | nil => exact (List.append_nil _).symm
  | cons l ls ih =>
    obtain ⟨hl, hls⟩ := List.forall_mem_cons.1 h
    rw [List.flatMap_cons, List.append_assoc, linesFrom_append hl.plain, List.append_nil,
      List.singleton_append, linesFrom, if_pos rfl, List.reverse_reverse, hl.kept, ih hls,
      List.reverse_cons, List.append_assoc, List.singleton_append]

/-- Lines that end in line feeds are the lines of their text. -/
theorem lines_terminated {ls : List (List Char)} (h : ∀ l ∈ ls, IsLine l) :
    lines (ls.flatMap (· ++ ['\n'])) = ls :=
  linesFrom_terminated h []

theorem intercalate_empty (texts : List String) : "".intercalate texts = String.join texts := by
  induction texts with
  | nil => rfl
  | cons t texts ih =>
    cases texts with
    | nil =>
      rw [String.intercalate_singleton, String.join_cons, String.join_nil, String.append_empty]
    | cons u texts =>
      rw [String.intercalate_cons_cons, ih, String.append_empty]
      exact String.join_cons.symm

end Text

/-! ## The text of an object -/

namespace Json

theorem compact_obj_isLine (members : List (String × Json)) :
    Text.IsLine (compact (.obj members)).toList := by
  have htext : (compact (.obj members)).toList =
      ('\x7b' :: writeMembers members) ++ ['\x7d'] := String.toList_ofList
  refine ⟨fun hmem => ?_, ?_⟩
  · rw [compact, String.toList_ofList] at hmem
    exact absurd (write_printable _ _ hmem) (by decide)
  · rw [htext]
    exact Text.dropReturn_concat (by decide) _

end Json

namespace Wire

theorem fieldsOfText_members (slots : List Slot) (members : List (String × Json)) :
    fieldsOfText slots ⟨members.map fun (k, v) => (some k, some v), .closed⟩ =
      fields slots (.obj members) := by
  simp only [fieldsOfText, fields, fieldsOfMembers]

end Wire

/-! ## Deliveries -/

namespace Outbound

theorem ofText_compact (m : Outbound) : ofText (Json.compact m.toJson) = .ok m := by
  have hjson : m.toJson = .obj (Json.textMembers
      [("body", m.body), ("correlationId", m.correlationId),
        ("idempotencyKey", m.idempotencyKey), ("channelId", m.channel),
        ("conversation", m.conversation)]) := rfl
  rw [ofText, hjson, Json.readObject_textObject, Wire.fieldsOfText_members, ← hjson]
  exact Wire.RoundTrip.of_lawful.read_written m trivial

/-- The text that is written for messages falls into one line for each, and the lines are read as
the messages. -/
theorem lines_read_back (ms : List Outbound) :
    lines ms = ms.foldl (fun written m => written ++ line m) "" ∧
    ∃ texts : List String, texts.length = ms.length ∧
      lines ms = String.join (texts.map (·.push '\n')) ∧ (∀ t ∈ texts, '\n' ∉ t.toList) ∧
      Text.lines (lines ms).toList = texts.map String.toList ∧
      texts.map ofText = ms.map .ok := by
  have hjoin : lines ms = String.join (ms.map line) := Text.intercalate_empty _
  have hlines : ∀ l ∈ ms.map (fun m => (Json.compact m.toJson).toList), Text.IsLine l := by
    intro l hl
    obtain ⟨m, -, rfl⟩ := List.mem_map.1 hl
    exact Json.compact_obj_isLine _
  have htext : (lines ms).toList =
      (ms.map fun m => (Json.compact m.toJson).toList).flatMap (· ++ ['\n']) := by
    simp only [hjoin, String.toList_join, List.flatMap_map, line, String.toList_push]
  refine ⟨?_, ms.map fun m => Json.compact m.toJson, List.length_map _, ?_, ?_, ?_, ?_⟩
  · rw [hjoin, String.join_eq_foldl, List.foldl_map]
  · rw [hjoin, List.map_map]
    rfl
  · intro t ht
    obtain ⟨m, -, rfl⟩ := List.mem_map.1 ht
    exact (Json.compact_obj_isLine _).plain
  · rw [htext, Text.lines_terminated hlines, List.map_map]
    rfl
  · rw [List.map_map]
    refine List.map_congr_left fun m _ => ?_
    rw [Function.comp_apply, ofText_compact]

end Outbound
end JobGate
