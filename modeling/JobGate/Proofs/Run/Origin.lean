/-
What the identifier of a run tells.

An identifier that was drawn tells the second for which it was drawn, and the random number up
to multiples of the number of suffixes.  It holds the numerals of both (`RunId.MadeOf`), and as a
number has one numeral only, nothing else is made of the same second and suffix.
-/
import JobGate.Proofs.Run.Identifier
import JobGate.Proofs.Run.Store

namespace JobGate
namespace RunId

/-- An identifier is made of the numerals of a second and of a suffix. -/
structure MadeOf (id : RunId) (front back : List Char) (seconds suffix : Nat) : Prop where
  text : id.text.toList = "run-".toList ++ front ++ '-' :: back
  digits : ∀ c ∈ front ++ back, c ∈ Base36.alphabet
  shortest : Base36.Shortest front
  width : back.length = 4
  seconds : Base36.value? front = some seconds
  suffix : Base36.value? back = some suffix

theorem drawn_madeOf (seconds sample : Nat) :
    (drawn seconds sample).MadeOf (Base36.encode seconds)
      (Base36.encodeFixed suffixWidth (sample % suffixCount)) seconds (sample % 36 ^ 4) where
  text := compose_toList seconds sample
  digits c hc := by
    rcases List.mem_append.1 hc with hc | hc
    · exact Base36.mem_encode seconds c hc
    · exact Base36.mem_encodeFixed _ _ c hc
  shortest := Base36.shortest_encode seconds
  width := Base36.length_encodeFixed _ _
  seconds := Base36.value?_encode seconds
  suffix := by
    rw [Base36.value?_encodeFixed]
    exact congrArg some (Nat.mod_mod _ _)

example : (drawn 1700000000 1679617).text = "run-s44we8-0001" := by decide +kernel

/-- Identifiers are the same exactly where their seconds and their suffixes are. -/
theorem MadeOf.eq_iff {id id' : RunId} {front front' back back' : List Char}
    {seconds seconds' suffix suffix' : Nat} (h : id.MadeOf front back seconds suffix)
    (h' : id'.MadeOf front' back' seconds' suffix') :
    id = id' ↔ seconds = seconds' ∧ suffix = suffix' := by
  constructor
  · rintro rfl
    -- as suffixes have one width, the text can be taken apart in one way only
    have htexts := h.text.symm.trans h'.text
    rw [List.append_cons, List.append_cons _ _ back'] at htexts
    obtain ⟨hfronts, rfl⟩ := List.append_inj' htexts (h.width.trans h'.width.symm)
    obtain rfl := List.append_cancel_left (List.append_cancel_right hfronts)
    exact ⟨Option.some.inj (h.seconds.symm.trans h'.seconds),
      Option.some.inj (h.suffix.symm.trans h'.suffix)⟩
  · rintro ⟨rfl, rfl⟩
    have hfronts : front = front' :=
      (Base36.eq_encode h.seconds h.shortest).trans
        (Base36.eq_encode h'.seconds h'.shortest).symm
    have hbacks : back = back' :=
      (Base36.eq_encodeFixed h.suffix h.width).trans
        (Base36.eq_encodeFixed h'.suffix h'.width).symm
    rw [← text_inj, ← String.toList_inj, h.text, h'.text, hfronts, hbacks]

theorem generate_of_draw {draws : Draws} {sample : Nat} (hdraw : draws.draw.1 = some sample)
    (seconds : Nat) : generate seconds draws = (.ok (drawn seconds sample), draws.draw.2) := by
  have hstream : draws.stream draws.taken = some sample := hdraw
  rw [generate_eq, hstream]
  rfl

/-- For a second from 1970 on and a random number, the identifier that is drawn is made of the
second and of what the number leaves modulo `36 ^ 4`, and is an identifier; two such identifiers
are the same exactly where both of these are.  For an earlier second there is none. -/
theorem generate_tells (seconds : Int) (draws : Draws) :
    (seconds < 0 → generate seconds draws = (.error .negativeTime, draws)) ∧
    ∀ sample, draws.draw.1 = some sample → 0 ≤ seconds → ∃ id front back,
      generate seconds draws = (.ok id, draws.draw.2) ∧
      id.MadeOf front back seconds.toNat (sample % 36 ^ 4) ∧
      parse id.text = .ok id ∧
      ∀ seconds' draws' sample' id', draws'.draw.1 = some sample' →
        (generate seconds' draws').1 = .ok id' →
          (id = id' ↔ seconds = seconds' ∧ sample % 36 ^ 4 = sample' % 36 ^ 4) := by
  refine ⟨fun hearly => generate_of_early hearly draws, fun sample hdraw hseconds => ?_⟩
  obtain ⟨n, rfl⟩ := Int.eq_ofNat_of_zero_le hseconds
  refine ⟨_, _, _, generate_of_draw hdraw n, drawn_madeOf n sample, parse_eq_ok_iff.2 rfl, ?_⟩
  intro seconds' draws' sample' id' hdraw' hid'
  rcases Int.lt_or_le seconds' 0 with hearly | hlate
  · rw [generate_of_early hearly] at hid'
    cases hid'
  · obtain ⟨m, rfl⟩ := Int.eq_ofNat_of_zero_le hlate
    rw [generate_of_draw hdraw'] at hid'
    cases hid'
    rw [(drawn_madeOf n sample).eq_iff (drawn_madeOf m sample'), Int.ofNat_inj]

/-- Two random numbers that differ by the number of suffixes, drawn for one second. -/
theorem generate_tells_congruent :
    let draws := Draws.ofList [some 1]
    let draws' := Draws.ofList [some 1679617]
    draws.draw.1 = some 1 ∧ draws'.draw.1 = some 1679617 ∧
      ∃ id front back, generate 1700000000 draws = (.ok id, draws.draw.2) ∧
        id.MadeOf front back 1700000000 1 ∧
        (generate 1700000000 draws').1 = .ok id ∧
        (generate 1700000001 draws').1 ≠ .ok id ∧
        generate (-1) draws = (.error .negativeTime, draws) := by
  intro draws draws'
  have hdraw : draws.draw.1 = some 1 := rfl
  have hdraw' : draws'.draw.1 = some 1679617 := rfl
  refine ⟨hdraw, hdraw', ?_⟩
  obtain ⟨id, front, back, hid, hmade, -, hsame⟩ :=
    (generate_tells 1700000000 draws).2 1 hdraw (by decide)
  obtain ⟨id', _, _, hid', -⟩ := (generate_tells 1700000000 draws').2 _ hdraw' (by decide)
  have heq : id = id' := (hsame _ _ _ id' hdraw' (by rw [hid'])).2 (by decide)
  refine ⟨id, front, back, hid, hmade, by rw [hid', heq], fun hlater => ?_,
    (generate_tells (-1) draws).1 (by decide)⟩
  exact absurd ((hsame _ _ _ id hdraw' hlater).1 rfl).1 (by decide)

end RunId
end JobGate
