import Mathlib.Algebra.Group.Nat.Defs
import VmControl.Proofs.Numeral
import VmControl.Proofs.Text.Ascii
import VmControl.Value.Size

/-!
# Sizes as they are written

A size is a numeral with at most one letter behind it.  The letter stands for a number of bytes, in
either case, and without one the numeral counts mebibytes.  Sizes are read with exact arithmetic:
whatever the unit of the result, a number that does not fit 64 bits is refused and no other one is.

## Main definitions

* `unitTable`: the letters, with the bytes that they stand for.
* `IsSize`: a text is a numeral of a number, with the letter for some bytes or without one.

## Main statements

* `isSize_none`, `isSize_some`: what a size is split into.
* `readSize_plain`, `readSize_suffixed`: what sizes are read as.
* `readSize_is_exact`: which texts are sizes, and what they are read as.
-/

namespace VmControl

open Numeral Text

/-! ## Units -/

/-- The letters of units, with the bytes that they stand for. -/
def unitTable : List (Char × Nat) :=
  [('b', 2 ^ 0), ('B', 2 ^ 0), ('k', 2 ^ 10), ('K', 2 ^ 10), ('m', 2 ^ 20), ('M', 2 ^ 20),
   ('g', 2 ^ 30), ('G', 2 ^ 30), ('t', 2 ^ 40), ('T', 2 ^ 40)]

theorem lt_of_mem_unitTable : ∀ p ∈ unitTable, p.1.toNat < 128 ∧ p.1.isDigit = false ∧ 0 < p.2 := by
  decide

/-- The bytes that a letter stands for are those that the table has for it. -/
theorem toList_unitBytes? (c : Char) :
    (unitBytes? c).toList = (unitTable.filter fun p => p.1 = c).map Prod.snd := by
  by_cases hc : c.toNat < 128
  · exact of_forall_ofNat (P := fun c =>
      (unitBytes? c).toList = (unitTable.filter fun p => p.1 = c).map Prod.snd)
      (by decide +kernel) hc
  · have hfilter : (unitTable.filter fun p => p.1 = c) = [] := by
      refine List.filter_eq_nil_iff.2 fun p hp heq => hc ?_
      rw [← of_decide_eq_true heq]
      exact (lt_of_mem_unitTable p hp).1
    have hnone : unitBytes? c = none := by
      rw [unitBytes?, toLower_of_not_lt hc]
      split
      case h_6 => rfl
      all_goals exact absurd (by decide) hc
    rw [hfilter, hnone]
    rfl

theorem unitBytes?_eq_some {c : Char} {w : Nat} : unitBytes? c = some w ↔ (c, w) ∈ unitTable := by
  rw [← Option.mem_toList, toList_unitBytes?]
  simp

/-! ## Sizes -/

/-- Whether a text is a numeral of a number, with the letter for some bytes or without one. -/
inductive IsSize : List Char → Nat → Option Nat → Prop where
  | plain {ds : List Char} {n : Nat} (hds : IsDecimal ds n) : IsSize ds n none
  | suffixed {ds : List Char} {n : Nat} {c : Char} {w : Nat} (hds : IsDecimal ds n)
    (hc : (c, w) ∈ unitTable) : IsSize (ds ++ [c]) n (some w)

section Grammar

variable {cs : List Char} {n w : Nat} {u : Option Nat}

theorem isSize_none : IsSize cs n none ↔ ∃ ds, splitDigits cs = (ds, []) ∧ IsDecimal ds n := by
  constructor
  · intro h
    cases h with
    | plain hds =>
      have hsplit : splitDigits (cs ++ []) = (cs, []) :=
        splitDigits_append_of_isDigit hds.isDigit (by simp)
      rw [List.append_nil] at hsplit
      exact ⟨cs, hsplit, hds⟩
  · intro ⟨ds, hsplit, hds⟩
    have htext := splitDigits_append cs
    rw [hsplit, List.append_nil] at htext
    exact htext ▸ .plain hds

theorem isSize_some : IsSize cs n (some w) ↔
    ∃ ds c, splitDigits cs = (ds, [c]) ∧ IsDecimal ds n ∧ unitBytes? c = some w := by
  constructor
  · intro h
    cases h with
    | suffixed hds hc =>
      have hnot := (lt_of_mem_unitTable _ hc).2.1
      exact ⟨_, _, splitDigits_append_of_isDigit hds.isDigit (by simpa using hnot), hds,
        unitBytes?_eq_some.2 hc⟩
  · intro ⟨ds, c, hsplit, hds, hc⟩
    have htext := splitDigits_append cs
    rw [hsplit] at htext
    exact htext ▸ .suffixed hds (unitBytes?_eq_some.1 hc)

end Grammar

/-! ## Reading -/

section Reading

variable {s t : String} {n m w v : Nat}

/-- A factor does not make a number small that is too large. -/
theorem below_bind_mul (bound n : Nat) (hw : 0 < w) :
    ((below bound n).bind fun m => below bound (m * w)) = below bound (n * w) := by
  by_cases hn : n < bound
  · rw [below_eq_some.2 ⟨rfl, hn⟩]
    rfl
  · have hlarge : ¬ n * w < bound := fun hlt =>
      hn (Nat.lt_of_le_of_lt (Nat.le_mul_of_pos_right n hw) hlt)
    rw [below, below, if_neg hn, if_neg hlarge]
    rfl

theorem map_below (bound n : Nat) (f : Nat → Nat) :
    (below bound n).map f = if n < bound then some (f n) else none := by
  rw [below]
  split
  · rfl
  · rfl

/-- **A numeral counts mebibytes.** -/
theorem readSize_plain (h : IsSize s.toList n none) :
    readSize .mebibytes s = below word64 n ∧ readSize .bytes s = below word64 (n * mebibyte) := by
  obtain ⟨ds, hsplit, hds⟩ := isSize_none.1 h
  simp only [readSize, hsplit, hds.digits_eq]
  exact ⟨Option.bind_fun_some _, below_bind_mul word64 n (by decide)⟩

/-- **A letter makes a numeral count bytes.** -/
theorem readSize_suffixed (h : IsSize s.toList n (some w)) :
    readSize .bytes s = below word64 (n * w) ∧
      readSize .mebibytes s = (below word64 (n * w)).map (· / mebibyte) := by
  obtain ⟨ds, c, hsplit, hds, hc⟩ := isSize_some.1 h
  have hpos := (lt_of_mem_unitTable _ (unitBytes?_eq_some.1 hc)).2.2
  rw [← below_bind_mul word64 n hpos, Option.map_bind]
  simp only [readSize, hsplit, hds.digits_eq, hc, Option.bind_some, Option.map_id_fun']
  exact ⟨rfl, rfl⟩

/-- What is read is a size. -/
theorem isSize_of_readSize {unit : SizeUnit} {r : Nat} (h : readSize unit s = some r) :
    ∃ n < word64, ∃ u, IsSize s.toList n u := by
  rcases hsplit : splitDigits s.toList with ⟨ds, tail⟩
  rw [readSize, hsplit] at h
  obtain ⟨n, hn, htail⟩ := Option.bind_eq_some_iff.1 h
  obtain ⟨hds, hlt⟩ := digits_eq_some.1 hn
  refine ⟨n, hlt, ?_⟩
  match tail with
  | [] => exact ⟨none, isSize_none.2 ⟨ds, hsplit, hds⟩⟩
  | [c] =>
    obtain ⟨w, hw, -⟩ := Option.bind_eq_some_iff.1 htail
    exact ⟨some w, isSize_some.2 ⟨ds, c, hsplit, hds, hw⟩⟩
  | _ :: _ :: _ => cases htail

/-- What is read in bytes is read in mebibytes too, rounded down. -/
theorem readSize_mebibytes {b : Nat} (hb : readSize .bytes s = some b) :
    readSize .mebibytes s = some (b / mebibyte) := by
  obtain ⟨n, hn, u, h⟩ := isSize_of_readSize hb
  cases u with
  | none =>
    obtain ⟨hmebibytes, hbytes⟩ := readSize_plain h
    rw [hbytes, below_eq_some] at hb
    rw [hmebibytes, below_eq_some, ← hb.1, Nat.mul_div_cancel n (by decide)]
    exact ⟨rfl, hn⟩
  | some w =>
    obtain ⟨hbytes, hmebibytes⟩ := readSize_suffixed h
    rw [hmebibytes, ← hbytes, hb]
    rfl

/-- It does not matter which letter some bytes are written with. -/
theorem readSize_congr (hs : IsSize s.toList n (some w)) (ht : IsSize t.toList m (some v))
    (hsame : n * w = m * v) (unit : SizeUnit) : readSize unit s = readSize unit t := by
  cases unit with
  | mebibytes => rw [(readSize_suffixed hs).2, (readSize_suffixed ht).2, hsame]
  | bytes => rw [(readSize_suffixed hs).1, (readSize_suffixed ht).1, hsame]

end Reading

/-- **Sizes are read by their grammar, with exact arithmetic.**  A text that is read is a size of a
number that fits 64 bits.  A numeral alone counts mebibytes and one with a letter counts the bytes of
that letter; either is refused exactly if the count does not fit 64 bits.  So the two units agree on
what they count, and it does not matter which letter some bytes are written with. -/
theorem readSize_is_exact (s : String) :
    (∀ unit r, readSize unit s = some r → ∃ n < 2 ^ 64, ∃ u, IsSize s.toList n u) ∧
    (∀ n, IsSize s.toList n none →
      readSize .mebibytes s = (if n < 2 ^ 64 then some n else none) ∧
      readSize .bytes s = (if n * 2 ^ 20 < 2 ^ 64 then some (n * 2 ^ 20) else none)) ∧
    (∀ n w, IsSize s.toList n (some w) →
      readSize .mebibytes s = (if n * w < 2 ^ 64 then some (n * w / 2 ^ 20) else none) ∧
      readSize .bytes s = (if n * w < 2 ^ 64 then some (n * w) else none)) ∧
    (∀ b, readSize .bytes s = some b → readSize .mebibytes s = some (b / 2 ^ 20)) ∧
    (∀ t n m w v, IsSize s.toList n (some w) → IsSize t.toList m (some v) → n * w = m * v →
      ∀ unit, readSize unit s = readSize unit t) := by
  refine ⟨fun unit r => isSize_of_readSize, fun n => readSize_plain, ?_,
    fun b => readSize_mebibytes, fun t n m w v => readSize_congr⟩
  intro n w h
  obtain ⟨hbytes, hmebibytes⟩ := readSize_suffixed h
  exact ⟨hmebibytes.trans (map_below word64 (n * w) (· / mebibyte)), hbytes⟩

/-- `64M` and `65536K` are one size, and `16777216T` is none. -/
theorem size_of_two_spellings :
    IsSize "64M".toList 64 (some (2 ^ 20)) ∧ IsSize "65536K".toList 65536 (some (2 ^ 10)) ∧
    IsSize "16777216T".toList 16777216 (some (2 ^ 40)) ∧
    readSize .bytes "64M" = some (64 * 2 ^ 20) ∧ readSize .mebibytes "64M" = some 64 ∧
    readSize .bytes "64M" = readSize .bytes "65536K" ∧ readSize .bytes "16777216T" = none := by
  have hmega : IsSize "64M".toList 64 (some (2 ^ 20)) :=
    .suffixed (isDecimal_toString 64) (by decide)
  have hkilo : IsSize "65536K".toList 65536 (some (2 ^ 10)) :=
    .suffixed (isDecimal_toString 65536) (by decide)
  have htera : IsSize "16777216T".toList 16777216 (some (2 ^ 40)) :=
    .suffixed (isDecimal_toString 16777216) (by decide)
  obtain ⟨-, -, hread, hmebibytes, hspelling⟩ := readSize_is_exact "64M"
  have hbytes : readSize .bytes "64M" = some (64 * 2 ^ 20) := (hread _ _ hmega).2
  exact ⟨hmega, hkilo, htera, hbytes, hmebibytes _ hbytes,
    hspelling _ _ _ _ _ hmega hkilo (by decide) .bytes,
    ((readSize_is_exact "16777216T").2.2.1 _ _ htera).2⟩

end VmControl
