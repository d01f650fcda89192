/-
The two spellings of the flag.

The arguments behind a verb are items, words and paths, and each path is typed in one argument or
in two.  What is read from them depends on how a path is typed in one case only: a path that is
empty is refused where it is joined to the flag and taken where it stands apart
(`Options.parse_typed`).  So two ways to type the same items lead to the same options exactly when
both or neither of them join an empty path to the flag.
-/
import JobGate.CommandLine.Options

namespace JobGate
namespace CommandLine

inductive Item
  | word (text : String)
  /-- The flag with the path that it names. -/
  | path (value : String)
deriving DecidableEq

inductive Spelling
  /-- The flag and its value are two arguments. -/
  | apart
  /-- The flag and its value are one argument. -/
  | joined
deriving DecidableEq

/-- An item as it is typed.  A word is typed in one way only. -/
structure TypedItem where
  item : Item
  spelling : Spelling
deriving DecidableEq

def Item.word? : Item → Option String
  | word text => some text
  | path _ => none

def Item.path? : Item → Option String
  | word _ => none
  | path value => some value

namespace TypedItem

def args : TypedItem → List String
  | ⟨.word text, _⟩ => [text]
  | ⟨.path value, .apart⟩ => [Options.flag, value]
  | ⟨.path value, .joined⟩ => ["--config=" ++ value]

/-- Whether the flag looks as if its value were missing. -/
def lacksPath : TypedItem → Bool
  | ⟨.path value, .joined⟩ => value.isEmpty
  | ⟨.path _, .apart⟩ | ⟨.word _, _⟩ => false

def lineArgs (line : List TypedItem) : List String := line.flatMap (·.args)

variable {line : List TypedItem}

theorem lineArgs_word {text : String} {spelling : Spelling} :
    lineArgs (⟨.word text, spelling⟩ :: line) = text :: lineArgs line := rfl

theorem lineArgs_apart {value : String} :
    lineArgs (⟨.path value, .apart⟩ :: line) = Options.flag :: value :: lineArgs line := rfl

theorem lineArgs_joined {value : String} :
    lineArgs (⟨.path value, .joined⟩ :: line) = ("--config=" ++ value) :: lineArgs line := rfl

end TypedItem

namespace Options

open TypedItem (lineArgs)

def ofItems (items : List Item) : Options where
  path := (items.filterMap Item.path?).getLast?
  words := items.filterMap Item.word?

def extend (o : Options) (items : List Item) : Options where
  path := (ofItems items).path.or o.path
  words := o.words ++ (ofItems items).words

/-! ## One argument -/

theorem joinedValue?_joined (value : String) :
    joinedValue? ("--config=" ++ value) = some value := by
  have hlist : ("--config=" ++ value).toList = joinedFlag ++ value.toList := String.toList_append
  unfold joinedValue?
  rw [hlist, if_pos (List.isPrefixOf_iff_prefix.2 (List.prefix_append _ _)), List.drop_left,
    String.ofList_toList]

theorem joined_ne_flag (value : String) : "--config=" ++ value ≠ flag := by
  intro h
  have hlength := congrArg (·.toList.length) h
  rw [String.toList_append, List.length_append] at hlength
  have hjoined : "--config=".toList.length = 9 := rfl
  have hflag : flag.toList.length = 8 := rfl
  omega

/-- What begins like the flag looks like a flag. -/
theorem looksLikeFlag_of_dashes {arg : String} (cs : List Char)
    (h : "--".toList ++ cs <+: arg.toList) : looksLikeFlag arg = true :=
  List.isPrefixOf_iff_prefix.2 ((List.prefix_append _ _).trans h)

variable {text : String} (h : looksLikeFlag text = false)
include h

theorem ne_flag_of_word : text ≠ flag := by
  rintro rfl
  cases h

theorem joinedValue?_word : joinedValue? text = none := by
  unfold joinedValue?
  split
  · rename_i hprefix
    rw [looksLikeFlag_of_dashes "config=".toList (List.isPrefixOf_iff_prefix.1 hprefix)] at h
    cases h
  · rfl

omit h

/-! ## Items in order -/

variable (o : Options) (rest : List String)

theorem parseFrom_word (h : looksLikeFlag text = false) :
    parseFrom o (text :: rest) = parseFrom { o with words := o.words ++ [text] } rest := by
  rw [parseFrom.eq_def]
  simp only [if_neg (ne_flag_of_word h), joinedValue?_word h, h, Bool.false_eq_true, if_false]

theorem parseFrom_apart (value : String) :
    parseFrom o (flag :: value :: rest) = parseFrom { o with path := some value } rest := by
  rw [parseFrom, if_pos rfl]

theorem parseFrom_joined (value : String) :
    parseFrom o (("--config=" ++ value) :: rest) =
      if value.isEmpty then .error .noPath else parseFrom { o with path := some value } rest := by
  rw [parseFrom.eq_def]
  simp only [if_neg (joined_ne_flag value), joinedValue?_joined]

theorem extend_nil : o.extend [] = o := by
  simp [extend, ofItems]

theorem extend_word (text : String) (items : List Item) :
    o.extend (.word text :: items) = { o with words := o.words ++ [text] }.extend items := by
  simp [extend, ofItems, Item.word?, Item.path?]

theorem extend_path (value : String) (items : List Item) :
    o.extend (.path value :: items) = { o with path := some value }.extend items := by
  have hwords : (Item.path value :: items).filterMap Item.word? = items.filterMap Item.word? := rfl
  have hpaths : (Item.path value :: items).filterMap Item.path? =
      value :: items.filterMap Item.path? := rfl
  simp [extend, ofItems, hwords, hpaths, List.getLast?_cons]

theorem parseFrom_typed {line : List TypedItem}
    (hwords : ∀ text, .word text ∈ line.map (·.item) → looksLikeFlag text = false) :
    parseFrom o (lineArgs line) =
      if line.any (·.lacksPath) then .error .noPath else .ok (o.extend (line.map (·.item))) := by
  induction line generalizing o with
  | nil => exact congrArg Except.ok (extend_nil o).symm
  | cons t rest ih =>
    have hrest := fun o => ih o fun text htext => hwords text (List.mem_cons_of_mem _ htext)
    obtain ⟨item, spelling⟩ := t
    cases item with
    | word text =>
      rw [TypedItem.lineArgs_word, parseFrom_word o _ (hwords text List.mem_cons_self), hrest,
        ← extend_word]
      rfl
    | path value =>
      cases spelling with
      | apart =>
        rw [TypedItem.lineArgs_apart, parseFrom_apart, hrest, ← extend_path]
        rfl
      | joined =>
        have hlacks : (⟨.path value, .joined⟩ : TypedItem).lacksPath = value.isEmpty := rfl
        rw [TypedItem.lineArgs_joined, parseFrom_joined, hrest, ← extend_path, List.any_cons,
          hlacks]
        cases value.isEmpty <;> rfl

theorem parse_typed (line : List TypedItem)
    (hwords : ∀ text, .word text ∈ line.map (·.item) → looksLikeFlag text = false) :
    parse (lineArgs line) =
      if line.any (·.lacksPath) then .error .noPath else .ok (ofItems (line.map (·.item))) := by
  have hempty : extend {} (line.map (·.item)) = ofItems (line.map (·.item)) := by
    simp [extend]
  rw [parse, parseFrom_typed {} hwords, hempty]

theorem not_lacksPath_of_items {line : List TypedItem}
    (h : .path "" ∉ line.map (·.item)) : line.any (·.lacksPath) = false := by
  rw [List.any_eq_false]
  rintro ⟨item, spelling⟩ ht hlacks
  cases item with
  | word text => cases hlacks
  | path value =>
    cases spelling with
    | apart => cases hlacks
    | joined =>
      obtain rfl := String.isEmpty_iff.1 hlacks
      exact h (List.mem_map_of_mem ht)

/-- Two ways to type the same items lead to the same end exactly when both or neither join an empty
path to the flag.  An empty path that is joined is refused.  Otherwise the words are taken in order
and the last path counts, and so it is for every spelling if no path is empty. -/
theorem spellings_agree_iff (line line' : List TypedItem)
    (hitems : line'.map (·.item) = line.map (·.item))
    (hwords : ∀ text, .word text ∈ line.map (·.item) → looksLikeFlag text = false) :
    (parse (lineArgs line) = parse (lineArgs line') ↔
      line.any (·.lacksPath) = line'.any (·.lacksPath)) ∧
    parse (lineArgs line) =
      (if line.any (·.lacksPath) then .error .noPath
        else .ok (ofItems (line.map (·.item)))) ∧
    (.path "" ∉ line.map (·.item) →
      parse (lineArgs line) = .ok (ofItems (line.map (·.item))) ∧
      parse (lineArgs line') = .ok (ofItems (line.map (·.item)))) := by
  have hline := parse_typed line hwords
  have hline' := parse_typed line' (hitems ▸ hwords)
  rw [hitems] at hline'
  refine ⟨?_, hline, fun hpath => ⟨?_, ?_⟩⟩
  · rw [hline, hline']
    cases line.any (·.lacksPath) <;> cases line'.any (·.lacksPath) <;> simp
  · rw [hline, not_lacksPath_of_items hpath]
    rfl
  · rw [hline', not_lacksPath_of_items (hitems ▸ hpath)]
    rfl

/-- Paths that look like flags or hold the mark behind the flag, between words. -/
theorem spellings_agree_on_odd_paths :
    parse ["a", "--config", "--config", "-b", "--config=x=y"] =
        .ok { path := some "x=y", words := ["a", "-b"] } ∧
      parse ["a", "--config=--config", "-b", "--config", "x=y"] =
        .ok { path := some "x=y", words := ["a", "-b"] } := by
  have hwords : ∀ text, Item.word text ∈
      [Item.word "a", .path "--config", .word "-b", .path "x=y"] →
      looksLikeFlag text = false := by
    intro text htext
    simp only [List.mem_cons, Item.word.injEq, reduceCtorEq, List.not_mem_nil, false_or,
      or_false] at htext
    rcases htext with rfl | rfl <;> decide
  exact (spellings_agree_iff
    [⟨.word "a", .apart⟩, ⟨.path "--config", .apart⟩, ⟨.word "-b", .apart⟩,
      ⟨.path "x=y", .joined⟩]
    [⟨.word "a", .joined⟩, ⟨.path "--config", .joined⟩, ⟨.word "-b", .joined⟩,
      ⟨.path "x=y", .apart⟩] rfl hwords).2.2 (by decide)

/-- The same flag with the same value, which is empty: taken in one spelling and refused in the
other. -/
theorem empty_path_spellings_differ :
    let apart : List TypedItem := [⟨.path "", .apart⟩]
    let joined : List TypedItem := [⟨.path "", .joined⟩]
    apart.map (·.item) = joined.map (·.item) ∧
      parse (lineArgs apart) = .ok { path := some "" } ∧
      parse (lineArgs joined) = .error .noPath := by
  intro apart joined
  exact ⟨rfl, rfl, parse_typed joined (by simp [joined])⟩

end Options
end CommandLine
end JobGate
