/-
Identifiers that are drawn for runs.

What is made of a second and a random number is always an identifier, so a draw fails only
where the clock stands before 1970 or the source gives nothing.  `RunId.drawn` is the
identifier that such a draw gives.
-/
import JobGate.Proofs.Text.Base36
import JobGate.Run.Identifier

namespace JobGate

theorem Base36.allows_of_mem_alphabet : ∀ c ∈ alphabet, Identifier.allows c = true :=
  List.all_eq_true.1 (by decide)

namespace RunId

theorem compose_toList (seconds sample : Nat) :
    (compose seconds sample).toList = "run-".toList ++ Base36.encode seconds ++
      '-' :: Base36.encodeFixed suffixWidth (sample % suffixCount) :=
  String.toList_ofList

theorem compose_allowed (seconds sample : Nat) :
    ∀ c ∈ (compose seconds sample).toList, Identifier.allows c = true := by
  have hhead : ∀ c ∈ "run-".toList, Identifier.allows c = true := List.all_eq_true.1 rfl
  intro c hc
  rw [compose_toList] at hc
  rcases List.mem_append.1 hc with hc | hc
  · rcases List.mem_append.1 hc with hc | hc
    · exact hhead c hc
    · exact Base36.allows_of_mem_alphabet c (Base36.mem_encode seconds c hc)
  · rcases List.mem_cons.1 hc with rfl | hc
    · rfl
    · exact Base36.allows_of_mem_alphabet c (Base36.mem_encodeFixed _ _ c hc)

theorem compose_valid (seconds sample : Nat) :
    Identifier.fault? (compose seconds sample) = none := by
  have hall : (compose seconds sample).toList.all Identifier.allows = true :=
    List.all_eq_true.2 (compose_allowed seconds sample)
  have hnonempty : (compose seconds sample).isEmpty = false := by
    cases hempty : (compose seconds sample).isEmpty with
    | false => rfl
    | true =>
      have hlist := compose_toList seconds sample
      rw [String.isEmpty_iff.1 hempty] at hlist
      have hlength := congrArg List.length hlist
      simp only [String.toList_empty, List.length_nil, List.length_append, List.length_cons]
        at hlength
      omega
  unfold Identifier.fault?
  rw [hnonempty, hall]
  rfl

theorem parse_of_valid {text : String} (h : Identifier.fault? text = none) :
    parse text = .ok ⟨text, h⟩ := by
  unfold parse
  split
  · rfl
  · rename_i fault hfault
    rw [h] at hfault
    cases hfault

theorem parse_eq_ok_iff {text : String} {id : RunId} : parse text = .ok id ↔ id.text = text := by
  constructor
  · intro h
    unfold parse at h
    split at h
    · cases h
      rfl
    · cases h
  · rintro rfl
    exact parse_of_valid id.valid

def drawn (seconds sample : Nat) : RunId :=
  ⟨compose seconds sample, compose_valid seconds sample⟩

theorem generate_of_early {seconds : Int} (h : seconds < 0) (draws : Draws) :
    generate seconds draws = (.error .negativeTime, draws) := by
  unfold generate
  rw [if_pos h]

theorem generate_eq (seconds : Nat) (draws : Draws) :
    generate seconds draws =
      ((match draws.stream draws.taken with
        | none => .error .noRandomness
        | some sample => .ok (drawn seconds sample)),
        { draws with taken := draws.taken + 1 }) := by
  have hnot : ¬ (seconds : Int) < 0 := by omega
  unfold generate Draws.draw
  rw [if_neg hnot]
  cases draws.stream draws.taken with
  | none => rfl
  | some sample =>
    simp only [Int.toNat_natCast, parse_of_valid (compose_valid seconds sample)]
    rfl

end RunId
end JobGate
