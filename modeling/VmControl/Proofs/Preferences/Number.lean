import VmControl.Proofs.Numeral
import VmControl.Proofs.Preferences

/-!
# Larger numbers for the preferences

The verbosity and the time limit are the numbers that their values start with.  A number is read as
itself if its magnitude has 31 bits, and as zero if it has more.  So a larger number is read as a
larger one, unless it is positive and too large while the smaller one is not; and, below zero,
unless the smaller one is too large while the larger one is not.

## Main definitions

* `Leads`: a text starts with a number.
* `FitsWord`: a number has a magnitude of 31 bits.

## Main statements

* `Leads.leading_eq`: what a number is read as.
* `leading_le_leading_iff`: which numbers keep their order.
* `Call.larger_number_counts_iff`: which of them keep it in the preferences.
-/

namespace VmControl

open Options Text

namespace Numeral

/-- Whether a text starts with the digits of a number, and no more of them. -/
def StartsWith (cs : List Char) (n : Nat) : Prop :=
  ∃ ds tail, cs = ds ++ tail ∧ IsDecimal ds n ∧ ∀ c ∈ tail.head?, c.isDigit = false

/-- Whether a text starts with a number: blanks, at most one sign, and digits. -/
inductive Leads : List Char → Int → Prop where
  | bare {blanks cs : List Char} {n : Nat} (hblanks : ∀ c ∈ blanks, isBlank c = true)
    (h : StartsWith cs n) : Leads (blanks ++ cs) n
  | plus {blanks cs : List Char} {n : Nat} (hblanks : ∀ c ∈ blanks, isBlank c = true)
    (h : StartsWith cs n) : Leads (blanks ++ '+' :: cs) n
  | minus {blanks cs : List Char} {n : Nat} (hblanks : ∀ c ∈ blanks, isBlank c = true)
    (h : StartsWith cs n) : Leads (blanks ++ '-' :: cs) (-n)

/-- Whether a word of 32 bits holds a number with either sign. -/
def FitsWord (z : Int) : Prop := z.natAbs < word32 / 2

instance (z : Int) : Decidable (FitsWord z) := inferInstanceAs (Decidable (_ < _))

section Reading

variable {cs ds blanks : List Char} {n : Nat} {z a b : Int}

theorem trimStart_append (hblanks : ∀ c ∈ blanks, isBlank c = true)
    (hcs : ∀ c ∈ cs.head?, isBlank c = false) : trimStart (blanks ++ cs) = cs := by
  rw [trimStart, List.dropWhile_append_of_pos hblanks]
  cases cs with
  | nil => rfl
  | cons c cs => rw [List.dropWhile_cons_of_neg (by simp [hcs c rfl])]

/-- Digits alone are a number. -/
theorem StartsWith.leads (h : StartsWith cs n) : Leads cs n :=
  .bare (List.forall_mem_nil _) h

theorem StartsWith.exists_cons (h : StartsWith cs n) :
    ∃ c cs', cs = c :: cs' ∧ c.isDigit = true := by
  obtain ⟨ds, tail, rfl, hds, -⟩ := h
  obtain ⟨c, ds, rfl⟩ := List.exists_cons_of_ne_nil hds.ne_nil
  exact ⟨c, ds ++ tail, rfl, hds.isDigit c (List.mem_cons_self ..)⟩

/-- The magnitude of a number is read as itself, or as zero. -/
theorem StartsWith.magnitude_eq (h : StartsWith cs n) :
    ((digits (word32 / 2) (cs.takeWhile Char.isDigit)).getD 0 : Int) =
      if FitsWord n then (n : Int) else 0 := by
  obtain ⟨ds, tail, rfl, hds, htail⟩ := h
  have htake : (ds ++ tail).takeWhile Char.isDigit = ds :=
    congrArg Prod.fst (splitDigits_append_of_isDigit hds.isDigit htail)
  rw [htake, hds.digits_eq, below]
  by_cases hfits : n < word32 / 2
  · rw [if_pos hfits, if_pos (show FitsWord n from hfits), Option.getD_some]
  · rw [if_neg hfits, if_neg (show ¬ FitsWord n from hfits), Option.getD_none]
    rfl

theorem fitsWord_neg : FitsWord (-z) ↔ FitsWord z := by
  rw [FitsWord, FitsWord, Int.natAbs_neg]

/-- **A number is read as itself, or as zero if it does not fit.** -/
theorem Leads.leading_eq (h : Leads cs z) : leading cs = if FitsWord z then z else 0 := by
  cases h with
  | @bare blanks cs n hblanks h =>
    obtain ⟨c, ds, rfl, hc⟩ := h.exists_cons
    have htrim : trimStart (blanks ++ c :: ds) = c :: ds :=
      trimStart_append hblanks (by rintro c ⟨⟩; exact isBlank_of_isDigit hc)
    have hsign : leading (blanks ++ c :: ds) =
        ((digits (word32 / 2) ((c :: ds).takeWhile Char.isDigit)).getD 0 : Int) := by
      unfold leading
      rw [htrim]
      split
      · next hminus =>
        cases hminus
        cases hc
      · next hplus =>
        cases hplus
        cases hc
      · rfl
    rw [hsign, h.magnitude_eq]
  | @plus blanks cs n hblanks h =>
    have htrim : trimStart (blanks ++ '+' :: cs) = '+' :: cs :=
      trimStart_append hblanks (by rintro c ⟨⟩; decide)
    rw [← h.magnitude_eq, leading, htrim]
    rfl
  | @minus blanks cs n hblanks h =>
    have htrim : trimStart (blanks ++ '-' :: cs) = '-' :: cs :=
      trimStart_append hblanks (by rintro c ⟨⟩; decide)
    have hneg : leading (blanks ++ '-' :: cs) = -(if FitsWord n then (n : Int) else 0) := by
      rw [← h.magnitude_eq, leading, htrim]
      rfl
    rw [hneg, ite_congr (propext fitsWord_neg) (fun _ => rfl) (fun _ => rfl)]
    split <;> rfl

/-- **Which numbers keep their order when they are read**: a larger one that is positive must fit if
the smaller one is positive and fits, and the smaller one must if the larger one is negative and
fits. -/
theorem leading_le_leading_iff (ha : Leads cs a) (hb : Leads ds b) (hab : a ≤ b) :
    leading cs ≤ leading ds ↔
      (0 < a → FitsWord a → FitsWord b) ∧ (b < 0 → FitsWord b → FitsWord a) := by
  rw [ha.leading_eq, hb.leading_eq]
  by_cases hfita : FitsWord a
  · by_cases hfitb : FitsWord b
    · rw [if_pos hfita, if_pos hfitb]
      exact iff_of_true hab ⟨fun _ _ => hfitb, fun _ _ => hfita⟩
    · -- The larger number is read as zero.
      rw [if_pos hfita, if_neg hfitb]
      simp [hfita, hfitb]
  · by_cases hfitb : FitsWord b
    · -- The smaller number is read as zero.
      rw [if_neg hfita, if_pos hfitb]
      simp [hfita, hfitb]
    · rw [if_neg hfita, if_neg hfitb]
      exact iff_of_true (Int.le_refl 0) ⟨fun _ h => absurd h hfita, fun _ h => absurd h hfitb⟩

/-- Where negative numbers count as zero, only positive ones can lose their order. -/
theorem toNat_leading_le_iff (ha : Leads cs a) (hb : Leads ds b) (hab : a ≤ b) :
    (leading cs).toNat ≤ (leading ds).toNat ↔ (0 < a → FitsWord a → FitsWord b) := by
  rw [ha.leading_eq, hb.leading_eq]
  by_cases hfita : FitsWord a
  · by_cases hfitb : FitsWord b
    · rw [if_pos hfita, if_pos hfitb]
      exact iff_of_true (Int.toNat_le_toNat hab) fun _ _ => hfitb
    · rw [if_pos hfita, if_neg hfitb]
      simp [hfita, hfitb]
  · rw [if_neg hfita]
    exact iff_of_true (Nat.zero_le _) fun _ h => absurd h hfita

end Reading

end Numeral

open Numeral

/-! ## Preferences -/

/-- A line leaves the numbers of the last options that it came to, whether it is accepted or not. -/
theorem Call.numbers_eq (c : Call) (host : Host) (start : Preferences) {m : Match OptionId} :
    (Preferences.last? (c.perform host start).2.options .verbose = some m →
      (c.perform host start).2.preferences.verbosity = leading m.text.toList) ∧
    (Preferences.last? (c.perform host start).2.options .timeout = some m →
      (c.perform host start).2.preferences.timeout = some (leading m.text.toList).toNat) := by
  obtain ⟨out, ms, -, hperform⟩ := c.program.exists_options_perform c.args host
  obtain ⟨-, hoptions, hpreferences⟩ := hperform start
  change (c.perform host start).2.options = ms at hoptions
  change (c.perform host start).2.preferences = start.after ms at hpreferences
  rw [hoptions, hpreferences]
  exact ⟨fun hlast => by simp [Preferences.after, hlast],
    fun hlast => by simp [Preferences.after, hlast]⟩

/-- **Which larger numbers count for more.**  Of two numbers, each at the start of a text, the
larger one is read as a number that is not smaller, unless it is positive and needs more than 31
bits where the smaller one is positive and does not; or the smaller one is negative and needs more
where the larger one is negative and does not.  What is read are the verbosities that two lines
leave, if the texts are what they say last of it.  So it is with the time limits that they leave,
where what is negative counts as zero: only the first exception is one. -/
theorem Call.larger_number_counts_iff (m m' : Match OptionId) {a b : Int}
    (ha : Leads m.text.toList a) (hb : Leads m'.text.toList b) (hab : a ≤ b) :
    (leading m.text.toList ≤ leading m'.text.toList ↔
      (0 < a → FitsWord a → FitsWord b) ∧ (b < 0 → FitsWord b → FitsWord a)) ∧
    ∀ (c c' : Call) (host host' : Host) (start start' : Preferences),
      let after := (c.perform host start).2
      let after' := (c'.perform host' start').2
      (Preferences.last? after.options .verbose = some m →
        Preferences.last? after'.options .verbose = some m' →
        (after.preferences.verbosity ≤ after'.preferences.verbosity ↔
          (0 < a → FitsWord a → FitsWord b) ∧ (b < 0 → FitsWord b → FitsWord a))) ∧
      (Preferences.last? after.options .timeout = some m →
        Preferences.last? after'.options .timeout = some m' →
        ∃ t t', after.preferences.timeout = some t ∧ after'.preferences.timeout = some t' ∧
          (t ≤ t' ↔ (0 < a → FitsWord a → FitsWord b))) := by
  refine ⟨leading_le_leading_iff ha hb hab, fun c c' host host' start start' =>
    ⟨fun hlast hlast' => ?_, fun hlast hlast' => ?_⟩⟩
  · rw [(c.numbers_eq host start).1 hlast, (c'.numbers_eq host' start').1 hlast']
    exact leading_le_leading_iff ha hb hab
  · exact ⟨_, _, (c.numbers_eq host start).2 hlast, (c'.numbers_eq host' start').2 hlast',
      toNat_leading_le_iff ha hb hab⟩

/-! ## Time limits -/

/-- Starts a guest, with a time limit. -/
def startWithin (text : String) : Call := ⟨.guests, ["prlctl", "start", "vm1", "--timeout", text]⟩

/-- The time limit is the only option of the line. -/
theorem options_startWithin {text : String} (h : text ≠ "--help") (host : Host)
    (start : Preferences) : ((startWithin text).perform host start).2.options =
      [⟨.timeout, "--timeout", some ⟨text, ⟨4, 0, byteLength text.toList⟩⟩⟩] := by
  have hhelp : (startWithin text).program.help? (startWithin text).args = none := by
    simp [startWithin, Program.help?, h.symm]
  have hstream : CommandTable.start.read ["prlctl", "start", "vm1", "--timeout", text] 3 =
      ⟨[.option ⟨.timeout, "--timeout", some ⟨text, ⟨4, 0, byteLength text.toList⟩⟩⟩], none⟩ :=
    Table.read_eq_of_streamWithin (n := 2) (by rfl)
  have hline : ((startWithin text).perform host start).2.options =
      ((readGuestLine .start CommandTable.start 2
        ["prlctl", "start", "vm1", "--timeout", text]).perform host start).2.options := by
    show ((Program.read _ _).perform _ _).2.options = _
    rw [Program.read, hhelp]
    rfl
  rw [hline, readGuestLine, hstream]
  rfl

/-- The time limit that the line leaves. -/
theorem timeout_startWithin {text : String} (h : text ≠ "--help") (host : Host)
    (start : Preferences) : ((startWithin text).perform host start).2.preferences.timeout =
      some (leading text.toList).toNat := by
  have hlast : Preferences.last? ((startWithin text).perform host start).2.options .timeout =
      some ⟨.timeout, "--timeout", some ⟨text, ⟨4, 0, byteLength text.toList⟩⟩⟩ := by
    rw [options_startWithin h]
    rfl
  exact ((startWithin text).numbers_eq host start).2 hlast

/-- Of two time limits of which both fit, each with a letter behind it, the larger one is longer. -/
theorem larger_time_limit_is_longer :
    Leads "30s".toList 30 ∧ Leads "2147483647s".toList 2147483647 ∧
    leading "30s".toList ≤ leading "2147483647s".toList ∧
    ∃ t t', ((startWithin "30s").perform ⟨fun _ => .error "", fun _ => .error ""⟩
        .initial).2.preferences.timeout = some t ∧
      ((startWithin "2147483647s").perform ⟨fun _ => .error "", fun _ => .error ""⟩
        .initial).2.preferences.timeout = some t' ∧ t ≤ t' := by
  have hletter : ∀ c ∈ ['s'].head?, c.isDigit = false := by
    rintro c ⟨⟩
    rfl
  have hsmall : Leads "30s".toList 30 :=
    StartsWith.leads ⟨"30".toList, ['s'], rfl, ofDigits?_eq_some.1 (by decide), hletter⟩
  have hlarge : Leads "2147483647s".toList 2147483647 :=
    StartsWith.leads ⟨"2147483647".toList, ['s'], rfl, ofDigits?_eq_some.1 (by decide), hletter⟩
  have hfits : FitsWord 2147483647 := by decide
  obtain ⟨hread, hlines⟩ := Call.larger_number_counts_iff
    ⟨.timeout, "--timeout", some ⟨"30s", ⟨4, 0, 3⟩⟩⟩
    ⟨.timeout, "--timeout", some ⟨"2147483647s", ⟨4, 0, 11⟩⟩⟩ hsmall hlarge (by decide)
  obtain ⟨-, htimeout⟩ := hlines (startWithin "30s") (startWithin "2147483647s")
    ⟨fun _ => .error "", fun _ => .error ""⟩ ⟨fun _ => .error "", fun _ => .error ""⟩
    .initial .initial
  obtain ⟨t, t', ht, ht', hiff⟩ := htimeout
    (by rw [options_startWithin (by decide)]; rfl) (by rw [options_startWithin (by decide)]; rfl)
  exact ⟨hsmall, hlarge, hread.2 ⟨fun _ _ => hfits, fun hneg => absurd hneg (by decide)⟩,
    t, t', ht, ht', hiff.2 fun _ _ => hfits⟩

/-- A time limit of 32 bits is no time at all. -/
theorem too_large_time_limit_is_zero :
    Leads "30".toList 30 ∧ Leads "2147483648".toList 2147483648 ∧
    ¬ leading "30".toList ≤ leading "2147483648".toList ∧
    ((startWithin "30").perform ⟨fun _ => .error "", fun _ => .error ""⟩
      .initial).2.preferences.timeout = some 30 ∧
    ((startWithin "2147483648").perform ⟨fun _ => .error "", fun _ => .error ""⟩
      .initial).2.preferences.timeout = some 0 := by
  refine ⟨?_, ?_, by decide, timeout_startWithin (by decide) .., timeout_startWithin (by decide) ..⟩
  · exact StartsWith.leads ⟨"30".toList, [], rfl, ofDigits?_eq_some.1 (by decide), nofun⟩
  · exact StartsWith.leads ⟨"2147483648".toList, [], rfl, ofDigits?_eq_some.1 (by decide), nofun⟩

end VmControl
