import VmControl.Proofs.Redaction
import VmControl.Proofs.Safety.Value

/-!
# Wiping in any order

Slots may overlap, be empty, or lie outside of the argument vector.  Whatever they are, only the
bytes that they cover count: what is left does not depend on the order in which they are wiped, nor
on how often.

## Main statements

* `ArgumentBytes.eq_of_byte?`: vectors with the same lengths and bytes are equal.
* `ArgumentBytes.wipeAll_congr`: slots that cover the same bytes leave the same.
* `ArgumentBytes.wipeAll_is_confluent`: what is wiped, what is not, and that the order is free.
-/

namespace VmControl.ArgumentBytes

open Options

variable {b b' : ArgumentBytes} {slots slots' : List Slot} {i j : Nat}

/-- Two vectors are equal if their arguments have the same lengths and the same bytes. -/
theorem eq_of_byte? (hlength : b.toList.map List.length = b'.toList.map List.length)
    (hbytes : ∀ i j, b.byte? i j = b'.byte? i j) : b = b' := by
  obtain ⟨args⟩ := b
  obtain ⟨args'⟩ := b'
  refine congrArg ArgumentBytes.mk (List.ext_getElem? fun i => ?_)
  have hi : args[i]?.map List.length = args'[i]?.map List.length := by
    rw [← List.getElem?_map, ← List.getElem?_map]
    exact congrArg (·[i]?) hlength
  have hbyte (j : Nat) : args[i]?.bind (·[j]?) = args'[i]?.bind (·[j]?) := hbytes i j
  cases harg : args[i]? with
  | none =>
    cases harg' : args'[i]? with
    | none => rfl
    | some arg' => simp [harg, harg'] at hi
  | some arg =>
    cases harg' : args'[i]? with
    | none => simp [harg, harg'] at hi
    | some arg' =>
      simp only [harg, harg', Option.bind_some] at hbyte
      exact congrArg some (List.ext_getElem? hbyte)

/-- A byte that no slot covers stays as it is. -/
theorem byte?_wipeAll_of_not_covered (h : ¬ ∃ s ∈ slots, s.Covers i j) :
    (b.wipeAll slots).byte? i j = b.byte? i j := by
  rw [byte?_wipeAll]
  simp [h]

/-- **A byte is zero after slots were wiped exactly if it was before, or a slot covers it.** -/
theorem byte?_wipeAll_eq_zero_iff : (b.wipeAll slots).byte? i j = some 0 ↔
    b.byte? i j = some 0 ∨ (b.byte? i j).isSome = true ∧ ∃ s ∈ slots, s.Covers i j := by
  by_cases h : ∃ s ∈ slots, s.Covers i j
  · rw [byte?_wipeAll]
    cases b.byte? i j with
    | none => simp
    | some v => simp [h]
  · rw [byte?_wipeAll_of_not_covered h]
    exact ⟨.inl, fun hzero => hzero.resolve_right fun hcovered => h hcovered.2⟩

/-- **Slots that cover the same bytes leave the same.** -/
theorem wipeAll_congr (h : ∀ i j, (∃ s ∈ slots, s.Covers i j) ↔ ∃ s ∈ slots', s.Covers i j) :
    b.wipeAll slots = b.wipeAll slots' := by
  refine eq_of_byte? ?_ fun i j => ?_
  · rw [length_wipeAll, length_wipeAll]
  · rw [byte?_wipeAll, byte?_wipeAll]
    simp only [h i j]

/-- **Slots may be wiped in any order, and more than once.**  A byte is zero afterwards exactly if
it was before or a slot covers it; every other byte stays as it is, and so does the length of every
argument.  The same slots, in another order and with repetitions, leave the same.  A slot that
reaches beyond its argument is held to it, and no slot makes the bytes be looked for where there are
none. -/
theorem wipeAll_is_confluent (b : ArgumentBytes) (slots : List Slot) :
    let after := b.wipeAll slots
    (∀ i j, after.byte? i j = some 0 ↔
      b.byte? i j = some 0 ∨ (b.byte? i j).isSome = true ∧ ∃ s ∈ slots, s.Covers i j) ∧
    (∀ i j, (¬ ∃ s ∈ slots, s.Covers i j) → after.byte? i j = b.byte? i j) ∧
    after.toList.map List.length = b.toList.map List.length ∧
    (∀ slots', (∀ s, s ∈ slots' ↔ s ∈ slots) → b.wipeAll slots' = after) ∧
    Checked.wipeAll b slots = .ok after := by
  refine ⟨fun i j => byte?_wipeAll_eq_zero_iff, fun i j => byte?_wipeAll_of_not_covered,
    length_wipeAll b slots, fun slots' hsame => wipeAll_congr fun i j => ?_,
    Checked.wipeAll_eq b slots⟩
  simp only [hsame]

/-- Slots that overlap, one behind the end and one the wrong way round, in another order and with a
repetition. -/
theorem overlapping_slots_in_any_order :
    let b := ofArgs ["prlctl", "secret"]
    let slots : List Slot := [⟨1, 1, 40⟩, ⟨0, 3, 2⟩, ⟨1, 0, 2⟩]
    let slots' : List Slot := [⟨1, 0, 2⟩, ⟨0, 3, 2⟩, ⟨1, 1, 40⟩, ⟨1, 0, 2⟩]
    (∀ s, s ∈ slots' ↔ s ∈ slots) ∧ b.wipeAll slots' = b.wipeAll slots ∧
    (¬ ∃ s ∈ slots, s.Covers 0 2) ∧ (b.wipeAll slots).byte? 0 2 = b.byte? 0 2 := by
  intro b slots slots'
  have hsame : ∀ s, s ∈ slots' ↔ s ∈ slots := by
    intro s
    simp only [slots, slots', List.mem_cons, List.not_mem_nil, or_false]
    tauto
  have hcovered : ¬ ∃ s ∈ slots, s.Covers 0 2 := by decide
  obtain ⟨-, hframe, -, hconfluent, -⟩ := wipeAll_is_confluent b slots
  exact ⟨hsame, hconfluent slots' hsame, hcovered, hframe 0 2 hcovered⟩

end VmControl.ArgumentBytes
