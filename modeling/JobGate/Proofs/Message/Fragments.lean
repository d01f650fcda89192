/-
What the bytes of a key tell of its parts.

A NUL that a part holds looks like the end of the part.  So the bytes of a key tell its
fragments, the texts between one NUL and the next, and nothing more: two keys have the same
bytes exactly when they have the same fragments (`Key.bytes_eq_iff`).  Keys are mixed up only
where a NUL inside a part of the one stands where a part of the other ends.  A key without a NUL
is never mixed up with one that has as many parts (`Key.bytes_inj_of_length`).
-/
import JobGate.Proofs.Message.Key

namespace JobGate

namespace Text

/-- The texts between one NUL and the next. -/
def fragments (s : String) : List (List Char) := s.toList.splitOn '\x00'

theorem length_fragments_pos (s : String) : 0 < (fragments s).length :=
  List.length_pos_iff.2 (List.splitOn_ne_nil '\x00' s.toList)

/-- A text that is one fragment holds no NUL. -/
theorem isPlain_of_length {s : String} (h : (fragments s).length ≤ 1) : IsPlain s := by
  intro hmem
  obtain ⟨before, after, hs⟩ := List.append_of_mem hmem
  have hbefore := List.length_pos_iff.2 (List.splitOn_ne_nil '\x00' before)
  have hafter := List.length_pos_iff.2 (List.splitOn_ne_nil '\x00' after)
  rw [fragments, hs, List.splitOn_append_cons_self, List.length_append] at h
  omega

end Text

namespace Key

def fragments (k : Key) : List (List Char) := k.parts.flatMap Text.fragments

variable {k k' : Key}

theorem fragments_append (ps qs : List String) :
    fragments ⟨ps ++ qs⟩ = fragments ⟨ps⟩ ++ fragments ⟨qs⟩ := List.flatMap_append

/-- Splitting what was joined splits every part. -/
theorem splitOn_intercalate_flatMap {ps : List String} (h : ps ≠ []) :
    (['\x00'].intercalate (ps.map String.toList)).splitOn '\x00' = ps.flatMap Text.fragments := by
  induction ps with
  | nil => exact absurd rfl h
  | cons p rest ih =>
    cases rest with
    | nil =>
      rw [List.map_singleton, List.intercalate_singleton, List.flatMap_singleton]
      rfl
    | cons q rest =>
      rw [List.map_cons, List.map_cons, List.intercalate_cons_cons, List.append_assoc,
        List.singleton_append, List.splitOn_append_cons_self, ← List.map_cons,
        ih (List.cons_ne_nil q rest), List.flatMap_cons]
      rfl

theorem splitOn_joined_eq (h : k.parts ≠ []) : k.joined.toList.splitOn '\x00' = k.fragments := by
  rw [joined, String.toList_intercalate]
  exact splitOn_intercalate_flatMap h

/-- The bytes of a key tell its fragments and nothing more. -/
theorem bytes_eq_iff (h : k.parts ≠ []) (h' : k'.parts ≠ []) :
    k.bytes = k'.bytes ↔ k.fragments = k'.fragments := by
  rw [joined_inj, ← splitOn_joined_eq h, ← splitOn_joined_eq h']
  refine ⟨fun heq => by rw [heq], fun heq => String.toList_inj.1 ?_⟩
  have hjoin : ∀ l : List Char, ['\x00'].intercalate (l.splitOn '\x00') = l := fun _ =>
    List.intercalate_splitOn '\x00'
  rw [← hjoin k.joined.toList, heq, hjoin]

theorem length_parts_le (k : Key) : k.parts.length ≤ k.fragments.length := by
  obtain ⟨ps⟩ := k
  induction ps with
  | nil => exact Nat.le_refl 0
  | cons p rest ih =>
    have hp := Text.length_fragments_pos p
    rw [← List.singleton_append, fragments_append, List.length_append, List.length_append]
    simp only [fragments, List.flatMap_singleton] at ih ⊢
    simp only [List.length_singleton]
    omega

theorem length_fragments (h : k.IsPlain) : k.fragments.length = k.parts.length := by
  rw [← splitOn_joined_eq h.ne_nil, splitOn_joined h, List.length_map]

/-- A key with no more fragments than parts holds no NUL. -/
theorem isPlain_of_length (hne : k.parts ≠ []) (h : k.fragments.length ≤ k.parts.length) :
    k.IsPlain := by
  refine ⟨hne, fun s hs => ?_⟩
  obtain ⟨before, after, hparts⟩ := List.append_of_mem hs
  have hbefore := length_parts_le ⟨before⟩
  have hafter := length_parts_le ⟨after⟩
  have hfragments : k.fragments =
      fragments ⟨before⟩ ++ (Text.fragments s ++ fragments ⟨after⟩) := by
    rw [fragments, hparts, List.flatMap_append, List.flatMap_cons]
    rfl
  rw [hfragments, hparts] at h
  simp only [List.length_append, List.length_cons] at h hbefore hafter
  exact Text.isPlain_of_length (by omega)

/-- A key without a NUL is mixed up with shorter ones at most. -/
theorem bytes_inj_of_length (h : k.IsPlain) (hle : k.parts.length ≤ k'.parts.length) :
    k.bytes = k'.bytes ↔ k = k' := by
  refine ⟨fun hbytes => ?_, fun hk => hk ▸ rfl⟩
  have hne : k'.parts ≠ [] := by
    rintro hnil
    rw [hnil] at hle
    exact h.ne_nil (List.eq_nil_of_length_eq_zero (Nat.le_zero.1 hle))
  have hfragments := (bytes_eq_iff h.ne_nil hne).1 hbytes
  have hplain : k'.IsPlain := by
    refine isPlain_of_length hne ?_
    rw [← hfragments, length_fragments h]
    exact hle
  exact (bytes_inj h hplain).1 hbytes

end Key

/-! ## Replies -/

/-- What a reply says of the message that it answers: where that came from, and which it was. -/
def Inbound.origin (m : Inbound) : Key := ⟨[m.channel, m.conversation, m.sender, m.source]⟩

namespace Notice

variable {m m' : Inbound}

theorem fragments_reply (m : Inbound) (purpose : String) (scope : List String) (body : String) :
    (reply m purpose scope body).key.fragments =
      Text.fragments purpose ++ (m.origin.fragments ++ Key.fragments ⟨scope⟩) := by
  have hkey : (reply m purpose scope body).key = ⟨[purpose] ++ (m.origin.parts ++ scope)⟩ := rfl
  rw [hkey, Key.fragments_append, Key.fragments_append]
  rw [Key.fragments, List.flatMap_singleton]

/-- Replies of one purpose and one scope are mixed up when the origins of the messages are. -/
theorem bytes_reply_eq_iff (purpose : String) (scope : List String) (body body' : String) :
    (reply m purpose scope body).key.bytes = (reply m' purpose scope body').key.bytes ↔
      m.origin.fragments = m'.origin.fragments := by
  have hne : (reply m purpose scope body).key.parts ≠ [] := List.cons_ne_nil _ _
  have hne' : (reply m' purpose scope body').key.parts ≠ [] := List.cons_ne_nil _ _
  rw [Key.bytes_eq_iff hne hne', fragments_reply, fragments_reply, List.append_right_inj,
    List.append_left_inj]

/-- A message without a NUL gets replies of its own. -/
theorem bytes_reply_inj (h : m.origin.IsPlain ∨ m'.origin.IsPlain) (purpose : String)
    (scope : List String) (body body' : String) :
    (reply m purpose scope body).key.bytes = (reply m' purpose scope body').key.bytes ↔
      m.origin = m'.origin := by
  have hne : m.origin.parts ≠ [] := List.cons_ne_nil _ _
  have hne' : m'.origin.parts ≠ [] := List.cons_ne_nil _ _
  rw [bytes_reply_eq_iff, ← Key.bytes_eq_iff hne hne']
  rcases h with h | h
  · exact Key.bytes_inj_of_length h (Nat.le_refl _)
  · have hinj : m'.origin.bytes = m.origin.bytes ↔ m'.origin = m.origin :=
      Key.bytes_inj_of_length h (Nat.le_refl _)
    exact eq_comm.trans (hinj.trans eq_comm)

end Notice

/-- The bytes of a key are those of every other key with the same fragments, and of no other.
So keys are told apart while no part holds a NUL, and so are replies of one purpose and one scope
to two messages, of which one holds no NUL. -/
theorem keys_separate_fragments (k k' : Key) (h : k.parts ≠ []) (h' : k'.parts ≠ [])
    (m m' : Inbound) (purpose : String) (scope : List String) (body body' : String) :
    let key := (Notice.reply m purpose scope body).key
    let key' := (Notice.reply m' purpose scope body').key
    (k.bytes = k'.bytes ↔ k.fragments = k'.fragments) ∧
    (k.IsPlain → k.parts.length ≤ k'.parts.length → (k.bytes = k'.bytes ↔ k = k')) ∧
    (key.bytes = key'.bytes ↔ m.origin.fragments = m'.origin.fragments) ∧
    (m.origin.IsPlain ∨ m'.origin.IsPlain → (key.bytes = key'.bytes ↔ m.origin = m'.origin)) :=
  ⟨Key.bytes_eq_iff h h', fun hplain hle => Key.bytes_inj_of_length hplain hle,
    Notice.bytes_reply_eq_iff purpose scope body body',
    fun hplain => Notice.bytes_reply_inj hplain purpose scope body body'⟩

/-- Parts that a NUL separates, and a message that holds none next to one that does. -/
theorem keys_separate_fragments_plain :
    (Key.bytes ⟨["ab", "c"]⟩ ≠ Key.bytes ⟨["a", "bc"]⟩) ∧
    let hello (conversation sender : String) : Inbound :=
      { channel := "chat", sender, conversation, body := "hello" }
    (Notice.reply (hello "ops" "bob") "guidance" ["1"] "").key.bytes ≠
      (Notice.reply (hello "ops\x00bob" "") "guidance" ["1"] "").key.bytes := by
  let hello (conversation sender : String) : Inbound :=
    { channel := "chat", sender, conversation, body := "hello" }
  obtain ⟨-, hkeys, -, hreplies⟩ := keys_separate_fragments ⟨["ab", "c"]⟩ ⟨["a", "bc"]⟩ (by decide)
    (by decide) (hello "ops" "bob") (hello "ops\x00bob" "") "guidance" ["1"] "" ""
  have hkey : Key.IsPlain ⟨["ab", "c"]⟩ := ⟨by decide, by decide⟩
  have hmessage : (hello "ops" "bob").origin.IsPlain := ⟨by decide, by decide⟩
  exact ⟨fun heq => absurd ((hkeys hkey (by decide)).1 heq) (by decide),
    fun heq => absurd ((hreplies (.inl hmessage)).1 heq) (by decide)⟩

/-- Two messages that may come in, from two senders in two conversations, whose replies have one
key. -/
theorem nul_mixes_up_keys :
    let message (conversation sender : String) : Inbound :=
      { channel := "chat", sender, conversation, body := "hello", providerId := some "m-1" }
    let m := message "ops\x00eve" "bob"
    let m' := message "ops" "eve\x00bob"
    m.blankField? = none ∧ m'.blankField? = none ∧ m.conversation ≠ m'.conversation ∧
      m.sender ≠ m'.sender ∧ (Notice.reply m "guidance" [] "").key.parts ≠
        (Notice.reply m' "guidance" [] "").key.parts ∧
      (Notice.reply m "guidance" [] "").key.bytes =
        (Notice.reply m' "guidance" [] "").key.bytes := by
  refine ⟨by decide, by decide, by decide, by decide, by decide, ?_⟩
  exact (Notice.bytes_reply_eq_iff "guidance" [] "" "").2 (by decide)

end JobGate
