/-!
# Characters of ASCII

Upper and lower case differ for letters of ASCII only.  What is claimed of these few characters is
shown by looking at each of them, and every other character stays as it is.

## Main statements

* `of_forall_ofNat`: what holds of the characters of ASCII one by one.
* `toUpper_of_not_lt`, `toLower_of_not_lt`: other characters have one case only.
-/

namespace VmControl.Text

/-- What is shown of the characters of ASCII one by one. -/
theorem of_forall_ofNat {P : Char → Prop} (h : ∀ n < 128, P (Char.ofNat n)) {c : Char}
    (hc : c.toNat < 128) : P c := by
  rw [← Char.ofNat_toNat c]
  exact h c.toNat hc

/-- Only characters of ASCII have another form in upper case. -/
theorem toUpper_of_not_lt {c : Char} (hc : ¬ c.toNat < 128) : c.toUpper = c :=
  dif_neg fun hlower =>
    hc (Nat.lt_of_le_of_lt (UInt32.le_iff_toNat_le.1 hlower.2) (by decide))

/-- Only characters of ASCII have another form in lower case. -/
theorem toLower_of_not_lt {c : Char} (hc : ¬ c.toNat < 128) : c.toLower = c :=
  dif_neg fun hupper =>
    hc (Nat.lt_of_le_of_lt (UInt32.le_iff_toNat_le.1 hupper.2) (by decide))

/-- A character that no letter of ASCII has as its upper case is that of itself alone. -/
theorem toUpper_eq_iff {d : Char}
    (hd : ∀ n < 128, (Char.ofNat n).toUpper = d ↔ Char.ofNat n = d) (c : Char) :
    c.toUpper = d ↔ c = d := by
  by_cases hc : c.toNat < 128
  · exact of_forall_ofNat (P := fun c => c.toUpper = d ↔ c = d) hd hc
  · rw [toUpper_of_not_lt hc]

theorem toUpper_eq_colon (c : Char) : c.toUpper = ':' ↔ c = ':' :=
  toUpper_eq_iff (by decide +kernel) c

theorem toUpper_eq_zero (c : Char) : c.toUpper = '0' ↔ c = '0' :=
  toUpper_eq_iff (by decide +kernel) c

theorem toUpper_toUpper (c : Char) : c.toUpper.toUpper = c.toUpper := by
  by_cases hc : c.toNat < 128
  · exact of_forall_ofNat (P := fun c => c.toUpper.toUpper = c.toUpper) (by decide +kernel) hc
  · rw [toUpper_of_not_lt hc, toUpper_of_not_lt hc]

/-- A digit is its own upper case. -/
theorem toUpper_of_isDigit {c : Char} (h : c.isDigit = true) : c.toUpper = c := by
  have hle : c.val ≤ 57 := by
    simp only [Char.isDigit, Bool.and_eq_true, decide_eq_true_eq] at h
    exact h.2
  exact dif_neg fun hlower => absurd (UInt32.le_trans hlower.1 hle) (by decide)

end VmControl.Text
