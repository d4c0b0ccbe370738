import VmControl.Numeral

/-!
# Numerals as they are written

A decimal numeral is a run of digits, at least one, and zeros may lead it.  The readers of numerals
accept just these, some of them after a plus sign, if the value is in range.  So a number that is
written down is read again.

## Main definitions

* `IsDecimal`: a text is a decimal numeral of a number.
* `write`: a number as a numeral.

## Main statements

* `digits_eq_some`, `unsigned_eq_some`: what the readers accept.
* `isDecimal_toString`: a number is written as a numeral of it.
-/

namespace VmControl.Numeral

variable {bound n : Nat} {cs : List Char}

/-- Whether a text is a decimal numeral of a number. -/
structure IsDecimal (cs : List Char) (n : Nat) : Prop where
  /-- It has a digit, -/
  ne_nil : cs ≠ []
  /-- and nothing but digits, -/
  isDigit : ∀ c ∈ cs, c.isDigit = true
  /-- which stand for the number. -/
  value : ofDigits cs = n

theorem ofDigits?_eq_some : ofDigits? cs = some n ↔ IsDecimal cs n := by
  unfold ofDigits?
  constructor
  · intro h
    split at h
    · next hdigits =>
      cases h
      exact ⟨hdigits.1, List.all_eq_true.1 hdigits.2, rfl⟩
    · cases h
  · intro h
    rw [if_pos ⟨h.ne_nil, List.all_eq_true.2 h.isDigit⟩, h.value]

/-- **A reader of digits accepts the numerals of numbers below its bound.** -/
theorem digits_eq_some : digits bound cs = some n ↔ IsDecimal cs n ∧ n < bound := by
  unfold digits
  rw [Option.bind_eq_some_iff]
  constructor
  · rintro ⟨m, hm, hbelow⟩
    obtain ⟨rfl, hlt⟩ := below_eq_some.1 hbelow
    exact ⟨ofDigits?_eq_some.1 hm, hlt⟩
  · rintro ⟨hdecimal, hlt⟩
    exact ⟨n, ofDigits?_eq_some.2 hdecimal, below_eq_some.2 ⟨rfl, hlt⟩⟩

/-- A reader of digits keeps the number of a numeral if it is below its bound. -/
theorem IsDecimal.digits_eq (h : IsDecimal cs n) (bound : Nat) : digits bound cs = below bound n := by
  rw [digits, ofDigits?_eq_some.2 h]
  rfl

/-- Digits are split off up to the first character that is none. -/
theorem splitDigits_append_of_isDigit {ds tail : List Char} (hds : ∀ c ∈ ds, c.isDigit = true)
    (htail : ∀ c ∈ tail.head?, c.isDigit = false) : splitDigits (ds ++ tail) = (ds, tail) := by
  rw [splitDigits, List.takeWhile_append_of_pos hds, List.dropWhile_append_of_pos hds]
  cases tail with
  | nil => simp
  | cons c tail => simp [htail c rfl]

/-- A digit is no blank. -/
theorem isBlank_of_isDigit {c : Char} (h : c.isDigit = true) : Text.isBlank c = false := by
  have hrange : 48 ≤ c.toNat ∧ c.toNat ≤ 57 := by
    simpa [Char.isDigit, UInt32.le_iff_toNat_le] using h
  simp only [Text.isBlank, Text.blankRanges, List.any_cons, List.any_nil, Bool.or_false,
    Bool.or_eq_false_iff, Bool.and_eq_false_iff, decide_eq_false_iff_not]
  omega

/-- A plus sign is no numeral. -/
theorem not_isDecimal_plus : ¬ IsDecimal ('+' :: cs) n := by
  intro h
  have hplus : '+'.isDigit = true := h.isDigit '+' (List.mem_cons_self ..)
  revert hplus
  decide

/-- **One plus sign may precede the digits.** -/
theorem unsigned_eq_some : unsigned bound cs = some n ↔
    ∃ ds, (cs = ds ∨ cs = '+' :: ds) ∧ IsDecimal ds n ∧ n < bound := by
  unfold unsigned
  split
  · next ds =>
    rw [digits_eq_some]
    constructor
    · exact fun h => ⟨ds, .inr rfl, h⟩
    · rintro ⟨ds', hds | hds, h⟩
      · subst hds
        exact absurd h.1 not_isDecimal_plus
      · cases hds
        exact h
  · next hplus =>
    rw [digits_eq_some]
    constructor
    · exact fun h => ⟨cs, .inl rfl, h⟩
    · rintro ⟨ds, hds | hds, h⟩
      · rwa [hds]
      · exact absurd hds (hplus ds)

/-- Only digits are in a numeral. -/
theorem IsDecimal.notMem {c : Char} (hc : c.isDigit = false) (h : IsDecimal cs n) : c ∉ cs := by
  intro hmem
  rw [h.isDigit c hmem] at hc
  cases hc

/-- A reader of numerals sees to it that nothing but digits and a plus sign is in its text. -/
theorem notMem_of_unsigned {c : Char} (hc : c.isDigit = false) (hplus : c ≠ '+')
    (h : unsigned bound cs = some n) : c ∉ cs := by
  obtain ⟨ds, hds, hdecimal, -⟩ := unsigned_eq_some.1 h
  have hnot : c ∉ ds := hdecimal.notMem hc
  rcases hds with rfl | rfl
  · exact hnot
  · rw [List.mem_cons]
    rintro (heq | hmem)
    · exact hplus heq
    · exact hnot hmem

/-- **A number is written as a numeral of it.** -/
theorem isDecimal_toString (n : Nat) : IsDecimal (toString n).toList n := by
  have htext : (toString n).toList = Nat.toDigits 10 n := by
    rw [Nat.toString_eq_repr, Nat.toList_repr]
  rw [htext]
  exact {
    ne_nil := Nat.toDigits_ne_nil
    isDigit := fun c hc => Nat.isDigit_of_mem_toDigits (by decide) (by decide) hc
    value := Nat.ofDigitChars_toDigits (by decide) (by decide) }

/-! ## Numbers that are written down -/

/-- The numeral that a number is written as. -/
def write (n : Nat) : List Char := (toString n).toList

theorem isDecimal_write (n : Nat) : IsDecimal (write n) n := isDecimal_toString n

theorem notMem_write {c : Char} (hc : c.isDigit = false) (n : Nat) : c ∉ write n :=
  (isDecimal_write n).notMem hc

theorem digits_write (h : n < bound) : digits bound (write n) = some n :=
  digits_eq_some.2 ⟨isDecimal_write n, h⟩

theorem unsigned_write (h : n < bound) : unsigned bound (write n) = some n :=
  unsigned_eq_some.2 ⟨write n, .inl rfl, isDecimal_write n, h⟩

theorem lt_of_unsigned (h : unsigned bound cs = some n) : n < bound := by
  obtain ⟨ds, -, -, hlt⟩ := unsigned_eq_some.1 h
  exact hlt

end VmControl.Numeral
