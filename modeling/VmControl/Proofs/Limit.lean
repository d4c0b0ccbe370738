import VmControl.Proofs.Size
import VmControl.Resource

/-!
# Limits as they are written

A limit is a barrier and, behind a colon, what cannot be exceeded.  Either side is `unlimited` or
written as sizes are; a numeral alone is counted in a unit of its own.  Whatever is counted, no side
is above the largest limit.  The bytes of a numeral with a letter are a word of 64 bits as well: more
bytes than fit one are taken for as many as do, before they are divided.  So a side is the exact
quotient as long as the bytes fit, and is the largest limit beyond them only if it is counted in
bytes or pairs of them.

## Main definitions

* `IsLimit`, `IsLimitPair`: what one side of a limit, and a limit of one side or two, stands for.

## Main statements

* `readLimit_eq_some`, `readLimitPair_eq_some`: a side, and a limit, is read as what it stands for.
* `min_saturated_div`: where the quotient is exact.
* `readLimitPair_is_capped`: which texts are limits, and what they are read as.
-/

namespace VmControl

open Numeral Text

/-- What one side of a limit stands for. -/
inductive IsLimit (div plainDiv : Nat) : List Char → Nat → Prop where
  /-- No limit at all is the largest one. -/
  | unlimited : IsLimit div plainDiv "unlimited".toList limitMax
  /-- A numeral. -/
  | plain {cs : List Char} {n : Nat} (h : IsSize cs n none) (hn : n < 2 ^ 64) :
    IsLimit div plainDiv cs (min limitMax (n / plainDiv))
  /-- A numeral with the letter for some bytes. -/
  | suffixed {cs : List Char} {n w : Nat} (h : IsSize cs n (some w)) (hn : n < 2 ^ 64) :
    IsLimit div plainDiv cs (min limitMax (min (n * w) (2 ^ 64 - 1) / div))

/-- What a limit of one side or two stands for. -/
inductive IsLimitPair (div plainDiv : Nat) : List Char → LimitPair → Prop where
  /-- A barrier and what cannot be exceeded. -/
  | both {x y : List Char} {b l : Nat} (hx : ':' ∉ x) (hb : IsLimit div plainDiv x b)
    (hl : IsLimit div plainDiv y l) : IsLimitPair div plainDiv (x ++ ':' :: y) ⟨b, l⟩
  /-- A side that is left out equals the barrier. -/
  | barrier {x : List Char} {b : Nat} (hx : ':' ∉ x) (hb : IsLimit div plainDiv x b) :
    IsLimitPair div plainDiv x ⟨b, b⟩

section Reading

variable {div plainDiv v : Nat} {cs : List Char}

/-- A size starts with a digit, which `unlimited` does not. -/
theorem ne_unlimited_of_isSize {n : Nat} {u : Option Nat} (h : IsSize cs n u) :
    cs ≠ "unlimited".toList := by
  rintro rfl
  have hnothing : splitDigits "unlimited".toList = ([], "unlimited".toList) := by decide
  cases u with
  | none =>
    obtain ⟨ds, hsplit, -⟩ := isSize_none.1 h
    rw [hnothing] at hsplit
    cases hsplit
  | some w =>
    obtain ⟨ds, c, hsplit, -⟩ := isSize_some.1 h
    rw [hnothing] at hsplit
    cases hsplit

/-- **A side is read as what it stands for.** -/
theorem readLimit_eq_some : readLimit div plainDiv cs = some v ↔ IsLimit div plainDiv cs v := by
  constructor
  · intro h
    unfold readLimit at h
    split at h
    · next hcs =>
      cases h
      exact hcs ▸ .unlimited
    · rcases hsplit : splitDigits cs with ⟨ds, tail⟩
      rw [hsplit] at h
      obtain ⟨n, hn, htail⟩ := Option.bind_eq_some_iff.1 h
      obtain ⟨hds, hlt⟩ := digits_eq_some.1 hn
      match tail with
      | [] =>
        cases htail
        rw [Nat.min_comm]
        exact .plain (isSize_none.2 ⟨ds, hsplit, hds⟩) hlt
      | [c] =>
        obtain ⟨w, hw, hv⟩ := Option.map_eq_some_iff.1 htail
        rw [← hv, Nat.min_comm]
        exact .suffixed (isSize_some.2 ⟨ds, c, hsplit, hds, hw⟩) hlt
      | _ :: _ :: _ => cases htail
  · intro h
    cases h with
    | unlimited => exact if_pos rfl
    | @plain cs n h hn =>
      obtain ⟨ds, hsplit, hds⟩ := isSize_none.1 h
      have hdigits : digits word64 ds = some n := digits_eq_some.2 ⟨hds, hn⟩
      rw [readLimit, if_neg (ne_unlimited_of_isSize h), hsplit]
      simp only [hdigits, Option.bind_some]
      exact congrArg some (Nat.min_comm _ limitMax)
    | @suffixed cs n w h hn =>
      obtain ⟨ds, c, hsplit, hds, hc⟩ := isSize_some.1 h
      have hdigits : digits word64 ds = some n := digits_eq_some.2 ⟨hds, hn⟩
      rw [readLimit, if_neg (ne_unlimited_of_isSize h), hsplit]
      simp only [hdigits, hc, Option.bind_some, Option.map_some]
      exact congrArg some (Nat.min_comm _ limitMax)

/-! ## Bytes that do not fit -/

/-- **The quotient is exact if the bytes fit**, and up to the largest limit if they are counted one
by one or in pairs. -/
theorem min_saturated_div {m : Nat} (h : m < 2 ^ 64 ∨ div ≤ 2) :
    min limitMax (min m (2 ^ 64 - 1) / div) = min limitMax (m / div) := by
  by_cases hfits : m < 2 ^ 64
  · rw [Nat.min_eq_left (Nat.le_sub_one_of_lt hfits)]
  · have hmax : limitMax = 2 ^ 63 - 1 := rfl
    have hword : min m (2 ^ 64 - 1) = 2 ^ 64 - 1 := Nat.min_eq_right (by omega)
    have hsmall : div = 0 ∨ div = 1 ∨ div = 2 := by omega
    rw [hword, hmax]
    rcases hsmall with rfl | rfl | rfl
    · rw [Nat.div_zero, Nat.div_zero]
    · rw [Nat.div_one, Nat.div_one]
      omega
    · omega

theorem readLimit_exact {n w : Nat} (h : IsSize cs n (some w)) (hn : n < 2 ^ 64)
    (hfits : n * w < 2 ^ 64 ∨ div ≤ 2) :
    readLimit div plainDiv cs = some (min limitMax (n * w / div)) := by
  rw [← min_saturated_div hfits]
  exact readLimit_eq_some.2 (.suffixed h hn)

/-! ## Both sides -/

/-- **A limit is cut at its first colon**, and read side by side. -/
theorem readLimitPair_eq_some {s : String} {p : LimitPair} :
    readLimitPair div plainDiv s = some p ↔ IsLimitPair div plainDiv s.toList p := by
  constructor
  · intro h
    unfold readLimitPair at h
    split at h
    · next x y hcut =>
      obtain ⟨htext, hx⟩ := cutFirst_eq_some.1 hcut
      obtain ⟨b, hb, hrest⟩ := Option.bind_eq_some_iff.1 h
      obtain ⟨l, hl, rfl⟩ := Option.map_eq_some_iff.1 hrest
      exact htext ▸ .both hx (readLimit_eq_some.1 hb) (readLimit_eq_some.1 hl)
    · next hcut =>
      obtain ⟨b, hb, rfl⟩ := Option.map_eq_some_iff.1 h
      exact .barrier (cutFirst_eq_none.1 hcut) (readLimit_eq_some.1 hb)
  · intro h
    generalize htext : s.toList = cs at h
    cases h with
    | both hx hb hl =>
      simp only [readLimitPair, htext, cutFirst_eq_some.2 ⟨rfl, hx⟩, readLimit_eq_some.2 hb,
        readLimit_eq_some.2 hl, Option.bind_some, Option.map_some]
    | barrier hx hb =>
      simp only [readLimitPair, htext, cutFirst_eq_none.2 hx, readLimit_eq_some.2 hb,
        Option.map_some]

end Reading

/-- **Limits are read side by side, and no side is above the largest limit.**  One that is left out
equals the barrier.  A side in bytes is the exact quotient if the bytes fit 64 bits, or if they are
counted one by one or in pairs. -/
theorem readLimitPair_is_capped (div plainDiv : Nat) (s : String) (p : LimitPair) :
    (readLimitPair div plainDiv s = some p ↔ IsLimitPair div plainDiv s.toList p) ∧
    (∀ cs n w, IsSize cs n (some w) → n < 2 ^ 64 → n * w < 2 ^ 64 ∨ div ≤ 2 →
      readLimit div plainDiv cs = some (min limitMax (n * w / div))) :=
  ⟨readLimitPair_eq_some, fun _ _ _ => readLimit_exact⟩

/-- `1M:2T` of memory pages. -/
theorem limit_of_two_sides :
    IsSize "2T".toList 2 (some (2 ^ 40)) ∧ IsLimitPair pageSize 1 "1M:2T".toList ⟨256, 2 ^ 29⟩ ∧
    readLimitPair pageSize 1 "1M:2T" = some ⟨256, 2 ^ 29⟩ ∧
    readLimit pageSize 1 "2T".toList = some (2 ^ 29) := by
  have hmega : IsSize "1M".toList 1 (some (2 ^ 20)) := .suffixed (isDecimal_toString 1) (by decide)
  have htera : IsSize "2T".toList 2 (some (2 ^ 40)) := .suffixed (isDecimal_toString 2) (by decide)
  have hbarrier : IsLimit pageSize 1 "1M".toList 256 := .suffixed hmega (by decide)
  have hlimit : IsLimit pageSize 1 "2T".toList (2 ^ 29) := .suffixed htera (by decide)
  have hpair : IsLimitPair pageSize 1 "1M:2T".toList ⟨256, 2 ^ 29⟩ :=
    .both (by decide) hbarrier hlimit
  obtain ⟨hread, hexact⟩ := readLimitPair_is_capped pageSize 1 "1M:2T" ⟨256, 2 ^ 29⟩
  exact ⟨htera, hpair, hread.2 hpair, hexact _ _ _ htera (by decide) (.inl (by decide))⟩

/-- The bytes of `16777216T` do not fit, and so a page is missing. -/
theorem limit_of_saturated_bytes :
    IsSize "16777216T".toList 16777216 (some (2 ^ 40)) ∧
    readLimitPair pageSize 1 "16777216T" = some ⟨2 ^ 52 - 1, 2 ^ 52 - 1⟩ ∧
    min limitMax (16777216 * 2 ^ 40 / pageSize) = 2 ^ 52 := by
  refine ⟨.suffixed (isDecimal_toString 16777216) (by decide), ?_, by decide⟩
  decide +kernel

end VmControl
