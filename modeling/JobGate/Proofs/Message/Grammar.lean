/-
Which messages are commands.

A message is a command when it is a command word and an argument with blanks between them and
perhaps around them (`Intent.IsCommand`).  Whoever wrote the message may have mixed small and
capital letters in the command word, but what the argument is made of is kept.
-/
import JobGate.Proofs.Message.Command
import Mathlib.Data.List.DropRight
import Mathlib.Data.List.Forall2

namespace JobGate

namespace Text

/-! ## Words -/

def Blank (cs : List Char) : Prop := ∀ c ∈ cs, isBlank c = true

variable {cs w before rest after raw : List Char} {ws : List (List Char)}

theorem words_blank_append (h : Blank before) (cs : List Char) :
    words (before ++ cs) = words cs := by
  induction before with
  | nil => rfl
  | cons b before ih =>
    rw [List.cons_append, words_blank (h b List.mem_cons_self)]
    exact ih fun c hc => h c (List.mem_cons_of_mem b hc)

/-- A text is blank, or it has a first word. -/
theorem blank_or_exists_word (cs : List Char) : Blank cs ∨ ∃ before w rest,
    cs = before ++ (w ++ rest) ∧ Blank before ∧ IsWord w ∧ ∀ c ∈ rest.head?, isBlank c = true := by
  have hbefore : Blank (cs.takeWhile isBlank) := fun c hc => List.mem_takeWhile_imp hc
  cases hstart : cs.dropWhile isBlank with
  | nil => exact .inl (List.dropWhile_eq_nil_iff.1 hstart)
  | cons first others =>
    have hfirst : isBlank first = false := by
      have hhead := List.head?_dropWhile_not isBlank cs
      rwa [hstart] at hhead
    refine .inr ⟨cs.takeWhile isBlank, (first :: others).takeWhile (!isBlank ·),
      (first :: others).dropWhile (!isBlank ·), ?_, hbefore, ⟨?_, fun c hc => ?_⟩, fun c hc => ?_⟩
    · rw [List.takeWhile_append_dropWhile, ← hstart, List.takeWhile_append_dropWhile]
    · rw [List.takeWhile_cons_of_pos (by rw [hfirst]; rfl)]
      exact List.cons_ne_nil _ _
    · simpa using List.mem_takeWhile_imp hc
    · have hhead := List.head?_dropWhile_not (!isBlank ·) (first :: others)
      rw [Option.mem_def.1 hc] at hhead
      simpa using hhead

theorem words_eq_nil_iff : words cs = [] ↔ Blank cs := by
  constructor
  · intro h
    rcases blank_or_exists_word cs with hblank | ⟨before, w, rest, rfl, hbefore, hw, hrest⟩
    · exact hblank
    · rw [words_blank_append hbefore, words_append hw hrest] at h
      cases h
  · intro h
    have hwords := words_blank_append h []
    rwa [List.append_nil] at hwords

/-- The first of the words, and where it stands. -/
theorem words_eq_cons_iff : words cs = w :: ws ↔ ∃ before rest, cs = before ++ (w ++ rest) ∧
    Blank before ∧ IsWord w ∧ (∀ c ∈ rest.head?, isBlank c = true) ∧ words rest = ws := by
  constructor
  · intro h
    rcases blank_or_exists_word cs with hblank | ⟨before, w', rest, rfl, hbefore, hw, hrest⟩
    · rw [words_eq_nil_iff.2 hblank] at h
      cases h
    · rw [words_blank_append hbefore, words_append hw hrest] at h
      obtain ⟨rfl, hws⟩ := List.cons.inj h
      exact ⟨before, rest, rfl, hbefore, hw, hrest, hws⟩
  · rintro ⟨before, rest, rfl, hbefore, hw, hrest, rfl⟩
    rw [words_blank_append hbefore, words_append hw hrest]

theorem head?_blank_append (h : Blank before) (hne : before ≠ []) (cs : List Char) :
    ∀ c ∈ (before ++ cs).head?, isBlank c = true := by
  intro c hc
  cases before with
  | nil => exact absurd rfl hne
  | cons b before =>
    obtain rfl : b = c := Option.some.inj hc
    exact h b List.mem_cons_self

/-- A word cannot stand where there is to be a blank or nothing. -/
theorem ne_nil_of_word {between : List Char} (hw : IsWord w)
    (h : ∀ c ∈ (between ++ (w ++ rest)).head?, isBlank c = true) : between ≠ [] := by
  rintro rfl
  obtain ⟨hne, hvisible⟩ := hw
  cases w with
  | nil => exact hne rfl
  | cons c w =>
    have hc := hvisible c List.mem_cons_self
    rw [h c rfl] at hc
    cases hc

theorem words_eq_pair_iff {command argument : List Char} : words cs = [command, argument] ↔
    ∃ before between after, cs = before ++ command ++ between ++ argument ++ after ∧
      Blank before ∧ Blank between ∧ Blank after ∧ between ≠ [] ∧
      IsWord command ∧ IsWord argument := by
  constructor
  · intro h
    obtain ⟨before, rest, rfl, hbefore, hcommand, hrest, hwords⟩ := words_eq_cons_iff.1 h
    obtain ⟨between, after, rfl, hbetween, hargument, -, hafter⟩ := words_eq_cons_iff.1 hwords
    exact ⟨before, between, after, by simp only [List.append_assoc], hbefore, hbetween,
      words_eq_nil_iff.1 hafter, ne_nil_of_word hargument hrest, hcommand, hargument⟩
  · rintro ⟨before, between, after, rfl, hbefore, hbetween, hafter, hne, hcommand, hargument⟩
    have hend : ∀ c ∈ after.head?, isBlank c = true :=
      fun c hc => hafter c (List.mem_of_mem_head? hc)
    simp only [List.append_assoc]
    rw [words_blank_append hbefore, words_append hcommand (head?_blank_append hbetween hne _),
      words_blank_append hbetween, words_append hargument hend, words_eq_nil_iff.2 hafter]

/-! ## Trimming -/

/-- What is left of a text without the blanks around it. -/
structure TrimsTo (cs raw : List Char) : Prop where
  around : ∃ before after, cs = before ++ raw ++ after ∧ Blank before ∧ Blank after
  first : ∀ c ∈ raw.head?, isBlank c = false
  last : ∀ c ∈ raw.getLast?, isBlank c = false

theorem trimChars_eq (cs : List Char) :
    trimChars cs = (cs.dropWhile isBlank).rdropWhile isBlank := rfl

theorem trimsTo_trimChars (cs : List Char) : TrimsTo cs (trimChars cs) where
  around := by
    refine ⟨cs.takeWhile isBlank, (cs.dropWhile isBlank).rtakeWhile isBlank, ?_,
      fun c hc => List.mem_takeWhile_imp hc, fun c hc => List.mem_rtakeWhile_imp hc⟩
    rw [trimChars_eq, List.append_assoc, List.rdropWhile_append_rtakeWhile,
      List.takeWhile_append_dropWhile]
  first c hc := by
    -- what is left begins as the text does behind the blanks at its start
    obtain ⟨rest, hrest⟩ := List.rdropWhile_prefix isBlank (cs.dropWhile isBlank)
    have hhead := List.head?_dropWhile_not isBlank cs
    rw [← hrest, ← trimChars_eq, List.head?_append, Option.mem_def.1 hc] at hhead
    exact hhead
  last c hc := by
    obtain ⟨hne, rfl⟩ := List.mem_getLast?_eq_getLast hc
    exact Bool.eq_false_iff.2 (List.rdropWhile_last_not isBlank (cs.dropWhile isBlank) hne)

theorem TrimsTo.trimChars_eq_self (h : TrimsTo cs raw) : trimChars raw = raw := by
  have hstart : raw.dropWhile isBlank = raw := by
    rw [List.dropWhile_eq_self_iff]
    intro hlength
    have hfirst := h.first raw[0] (List.head?_eq_getElem? ▸ List.getElem?_eq_getElem hlength)
    exact Bool.eq_false_iff.1 hfirst
  rw [trimChars_eq, hstart, List.rdropWhile_eq_self_iff]
  intro hne
  exact Bool.eq_false_iff.1 (h.last _ (List.getLast?_eq_getLast_of_ne_nil hne))

/-- Blanks divide a text, wherever they stand. -/
theorem words_append_blank (h : Blank after) (cs : List Char) : words (cs ++ after) = words cs := by
  induction hlength : cs.length using Nat.strong_induction_on generalizing cs with
  | h n ih =>
    rcases blank_or_exists_word cs with hblank | ⟨before, w, rest, rfl, hbefore, hw, hrest⟩
    · rw [words_blank_append hblank, words_eq_nil_iff.2 h, words_eq_nil_iff.2 hblank]
    · have hshorter : rest.length < n := by
        have hpos := List.length_pos_of_ne_nil hw.nonempty
        simp only [List.length_append] at hlength
        omega
      have hnext : ∀ c ∈ (rest ++ after).head?, isBlank c = true := by
        cases rest with
        | nil => exact fun c hc => h c (List.mem_of_mem_head? hc)
        | cons b rest => exact hrest
      rw [List.append_assoc, List.append_assoc, words_blank_append hbefore, words_append hw hnext,
        ih _ hshorter rest rfl, words_blank_append hbefore, words_append hw hrest]

/-- The blanks around a text do not matter for its words. -/
theorem TrimsTo.words_eq (h : TrimsTo cs raw) : words raw = words cs := by
  obtain ⟨before, after, rfl, hbefore, hafter⟩ := h.around
  rw [List.append_assoc, words_blank_append hbefore, words_append_blank hafter]

/-! ## Command words -/

/-- Letter by letter the same word, be it written in small letters or in capitals. -/
def Spells (cs : List Char) (word : String) : Prop :=
  List.Forall₂ (fun c letter => c = letter ∨ c = letter.toUpper) cs word.toList

instance (cs : List Char) (word : String) : Decidable (Spells cs word) :=
  inferInstanceAs (Decidable (List.Forall₂ _ cs word.toList))

theorem toLower_eq_iff {c letter : Char} (h : letter.isLower = true) :
    c.toLower = letter ↔ c = letter ∨ c = letter.toUpper := by
  have hletter : 'a'.val ≤ letter.val ∧ letter.val ≤ 'z'.val :=
    ((Bool.and_eq_true _ _).mp h).imp of_decide_eq_true of_decide_eq_true
  delta Char.toUpper Char.toLower
  rw [dif_pos hletter]
  split
  · simp only [Char.ext_iff]
    grind
  · simp only [Char.ext_iff]
    grind

theorem isAlpha_of_isLower_toLower {c : Char} (h : c.toLower.isLower = true) :
    c.isAlpha = true := by
  refine (Bool.or_eq_true _ _).mpr ?_
  by_cases hupper : 'A'.val ≤ c.val ∧ c.val ≤ 'Z'.val
  · exact .inl (decide_eq_true hupper)
  · have hsame : c.toLower = c := dif_neg hupper
    rw [hsame] at h
    exact .inr h

theorem spells_iff {cs : List Char} {word : String} (h : word.toList.all Char.isLower = true) :
    Spells cs word ↔ cs.map Char.toLower = word.toList := by
  unfold Spells
  generalize word.toList = letters at h
  induction letters generalizing cs with
  | nil => cases cs <;> simp
  | cons letter letters ih =>
    rw [List.all_cons, Bool.and_eq_true] at h
    cases cs with
    | nil => simp
    | cons c cs =>
      rw [List.forall₂_cons, List.map_cons, List.cons.injEq, ih h.2, toLower_eq_iff h.1]

theorem Spells.isWord {cs : List Char} {word : String} (h : Spells cs word)
    (hletters : word.toList.all Char.isLower = true) (hne : word.toList ≠ []) : IsWord cs where
  nonempty := by
    rintro rfl
    exact hne (List.forall₂_nil_left_iff.1 h)
  visible c hc := by
    -- a letter, small or capital, can stand in an identifier too
    rw [spells_iff hletters] at h
    have hlower : c.toLower.isLower = true :=
      List.all_eq_true.1 hletters _ (h ▸ List.mem_map_of_mem hc)
    refine Identifier.isBlank_of_allows ?_
    simp [Identifier.allows, Char.isAlphanum, isAlpha_of_isLower_toLower hlower]

end Text

namespace IntentKind

def commands : List (String × IntentKind) :=
  [("run", runJob), ("yes", approveRun), ("approve", approveRun), ("no", denyRun),
    ("deny", denyRun), ("status", status)]

theorem commands_lower {word : String} {kind : IntentKind} (h : (word, kind) ∈ commands) :
    word.toList.all Char.isLower = true ∧ word.toList ≠ [] ∧ kind ≠ .unknown := by
  have hall : ∀ p ∈ commands,
      p.1.toList.all Char.isLower = true ∧ p.1.toList ≠ [] ∧ p.2 ≠ .unknown := by decide
  exact hall _ h

theorem ofCommand?_eq_some_iff {command : List Char} {kind : IntentKind} :
    ofCommand? command = some kind ↔
      ∃ word, (word, kind) ∈ commands ∧ Text.Spells command word := by
  constructor
  · intro h
    obtain ⟨word, hword, hlower⟩ :
        ∃ word, (word, kind) ∈ commands ∧ command.map Char.toLower = word.toList := by
      unfold ofCommand? at h
      dsimp only at h
      simp only [Bool.or_eq_true, decide_eq_true_eq] at h
      split_ifs at h with hrun happrove hdeny hstatus
      · cases h
        exact ⟨"run", by decide, hrun⟩
      · cases h
        rcases happrove with hyes | happrove
        · exact ⟨"yes", by decide, hyes⟩
        · exact ⟨"approve", by decide, happrove⟩
      · cases h
        rcases hdeny with hno | hdeny
        · exact ⟨"no", by decide, hno⟩
        · exact ⟨"deny", by decide, hdeny⟩
      · cases h
        exact ⟨"status", by decide, hstatus⟩
    exact ⟨word, hword, (Text.spells_iff (commands_lower hword).1).2 hlower⟩
  · rintro ⟨word, hword, hspells⟩
    rw [Text.spells_iff (commands_lower hword).1] at hspells
    unfold ofCommand?
    simp only [commands, List.mem_cons, Prod.mk.injEq, List.not_mem_nil, or_false] at hword
    rcases hword with ⟨rfl, rfl⟩ | ⟨rfl, rfl⟩ | ⟨rfl, rfl⟩ | ⟨rfl, rfl⟩ | ⟨rfl, rfl⟩ | ⟨rfl, rfl⟩
    all_goals
      rw [hspells]
      rfl

end IntentKind

/-! ## Commands -/

namespace Intent

/-- A command word and an argument, with blanks between them and perhaps around them. -/
def IsCommand (text : String) (kind : IntentKind) (argument : String) : Prop :=
  ∃ before command between after word,
    text.toList = before ++ command ++ between ++ argument.toList ++ after ∧
    Text.Blank before ∧ Text.Blank between ∧ Text.Blank after ∧ between ≠ [] ∧
    Text.IsWord argument.toList ∧ (word, kind) ∈ IntentKind.commands ∧ Text.Spells command word

variable {text argument : String} {kind : IntentKind}

theorem isCommand_iff : IsCommand text kind argument ↔ ∃ command,
    Text.words text.toList = [command, argument.toList] ∧
      IntentKind.ofCommand? command = some kind := by
  constructor
  · rintro ⟨before, command, between, after, word, htext, hbefore, hbetween, hafter, hne,
      hargument, hword, hspells⟩
    obtain ⟨hletters, hnonempty, -⟩ := IntentKind.commands_lower hword
    exact ⟨command, Text.words_eq_pair_iff.2 ⟨before, between, after, htext, hbefore, hbetween,
      hafter, hne, hspells.isWord hletters hnonempty, hargument⟩,
      IntentKind.ofCommand?_eq_some_iff.2 ⟨word, hword, hspells⟩⟩
  · rintro ⟨command, hwords, hkind⟩
    obtain ⟨before, between, after, htext, hbefore, hbetween, hafter, hne, -, hargument⟩ :=
      Text.words_eq_pair_iff.1 hwords
    obtain ⟨word, hword, hspells⟩ := IntentKind.ofCommand?_eq_some_iff.1 hkind
    exact ⟨before, command, between, after, word, htext, hbefore, hbetween, hafter, hne,
      hargument, hword, hspells⟩

theorem parse_of_isCommand (h : IsCommand text kind argument) :
    parse text = ofCommand kind (Text.trim text) argument := by
  obtain ⟨command, hwords, hkind⟩ := isCommand_iff.1 h
  unfold parse
  simp only [hwords, hkind, String.ofList_toList]

theorem parse_of_not_isCommand (h : ¬ ∃ kind argument, IsCommand text kind argument) :
    parse text = { kind := .unknown, rawText := Text.trim text } := by
  unfold parse
  dsimp only
  split
  next command argument hwords =>
    cases hkind : IntentKind.ofCommand? command with
    | none => rfl
    | some kind =>
      have hcommand : IsCommand text kind (String.ofList argument) :=
        isCommand_iff.2 ⟨command, by rwa [String.toList_ofList], hkind⟩
      exact absurd ⟨kind, _, hcommand⟩ h
  next => rfl

theorem rawText_parse (text : String) : (parse text).rawText = Text.trim text := by
  by_cases h : ∃ kind argument, IsCommand text kind argument
  · obtain ⟨kind, argument, hcommand⟩ := h
    rw [parse_of_isCommand hcommand, ofCommand]
    split_ifs <;> rfl
  · rw [parse_of_not_isCommand h]

/-- Only the words of a message matter, and what it is without the blanks around it. -/
theorem parse_trim (text : String) : parse (Text.trim text) = parse text := by
  have htrims := Text.trimsTo_trimChars text.toList
  have htrimmed : (Text.trim text).toList = Text.trimChars text.toList := String.toList_ofList
  have hagain : Text.trim (Text.trim text) = Text.trim text := by
    rw [Text.trim, htrimmed, htrims.trimChars_eq_self]
    rfl
  unfold parse
  rw [hagain, htrimmed, htrims.words_eq]

/-- A message is understood exactly when it is a command.  Then it is read as what its command
word asks for, with its argument as it is written, as the job key or as the run.  A message that
is not understood has neither.  Always the text without the blanks around it is kept, and
reading that again makes no difference. -/
theorem parse_reads_commands (text : String) :
    ((parse text).kind ≠ .unknown ↔ ∃ kind argument, IsCommand text kind argument) ∧
    (∀ kind argument, IsCommand text kind argument → (parse text).kind = kind ∧
      if kind = .runJob then (parse text).jobKey = some argument ∧ (parse text).run = none
      else (parse text).jobKey = none ∧ (parse text).run = some argument) ∧
    ((parse text).kind = .unknown → (parse text).jobKey = none ∧ (parse text).run = none) ∧
    Text.TrimsTo text.toList (parse text).rawText.toList ∧
    parse (parse text).rawText = parse text := by
  have hreads : ∀ kind argument, IsCommand text kind argument → (parse text).kind = kind ∧
      if kind = .runJob then (parse text).jobKey = some argument ∧ (parse text).run = none
      else (parse text).jobKey = none ∧ (parse text).run = some argument := by
    intro kind argument h
    rw [parse_of_isCommand h, ofCommand]
    split_ifs with hrun
    · exact ⟨rfl, rfl, rfl⟩
    · exact ⟨rfl, rfl, rfl⟩
  have hunderstood : ∀ kind argument, IsCommand text kind argument →
      (parse text).kind ≠ .unknown := by
    intro kind argument h
    obtain ⟨command, -, hkind⟩ := isCommand_iff.1 h
    obtain ⟨word, hword, -⟩ := IntentKind.ofCommand?_eq_some_iff.1 hkind
    rw [(hreads kind argument h).1]
    exact (IntentKind.commands_lower hword).2.2
  refine ⟨⟨fun h => ?_, ?_⟩, hreads, fun h => ?_, ?_, ?_⟩
  · by_contra hnone
    exact h (by rw [parse_of_not_isCommand hnone])
  · rintro ⟨kind, argument, hcommand⟩
    exact hunderstood kind argument hcommand
  · have hnone : ¬ ∃ kind argument, IsCommand text kind argument := by
      rintro ⟨kind, argument, hcommand⟩
      exact hunderstood kind argument hcommand h
    rw [parse_of_not_isCommand hnone]
    exact ⟨rfl, rfl⟩
  · rw [rawText_parse, Text.trim, String.toList_ofList]
    exact Text.trimsTo_trimChars text.toList
  · rw [rawText_parse, parse_trim]

/-- An approval between blanks that are not spaces, with capitals in the command word. -/
theorem parse_reads_commands_mixed :
    let text := "\u3000YeS\u00a0Run-7\n"
    IsCommand text .approveRun "Run-7" ∧ (parse text).kind = .approveRun ∧
      (parse text).run = some "Run-7" ∧ (parse text).jobKey = none := by
  intro text
  have hcommand : IsCommand text .approveRun "Run-7" :=
    ⟨['\u3000'], "YeS".toList, ['\u00a0'], ['\n'], "yes", by decide, List.all_eq_true.1 rfl,
      List.all_eq_true.1 rfl, List.all_eq_true.1 rfl, by decide, Text.isWord_of_all rfl rfl,
      by decide, by decide⟩
  obtain ⟨-, hreads, -⟩ := parse_reads_commands text
  obtain ⟨hkind, hjobKey, hrun⟩ := hreads _ _ hcommand
  exact ⟨hcommand, hkind, hrun, hjobKey⟩

end Intent
end JobGate
