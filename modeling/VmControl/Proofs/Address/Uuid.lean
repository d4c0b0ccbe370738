import VmControl.Proofs.Safety.Address

/-!
# UUIDs in their normal form

A UUID is five groups of 8, 4, 4, 4 and 12 hexadecimal digits with dashes between them, with or
without braces around them.  Its normal form has the braces, and the digits as they are.  It is
found without them by counting bytes, which is safe since a character of more than one byte is no
part of a UUID.

## Main definitions

* `IsBareUuid`: a text is a UUID without braces.
* `EqualUpToBraces`: two texts are the same but for braces around one of them.

## Main statements

* `isPlainUuid_iff`: the characters at their places make up the groups.
* `normalizeUuid_eq_some`: which texts have which normal form.
* `normalizeUuid_is_canonical`: the normal form is its own, and belongs to one UUID only.
-/

namespace VmControl

open Checked Text

/-- Whether a text is a UUID without braces: groups of hexadecimal digits with dashes between
them. -/
def IsBareUuid (cs : List Char) : Prop :=
  ∃ groups, groups.map List.length = [8, 4, 4, 4, 12] ∧
    (∀ g ∈ groups, ∀ c ∈ g, isHexDigit c = true) ∧ cs = ['-'].intercalate groups

/-- A text with braces around it. -/
def inBraces (cs : List Char) : List Char := '\x7b' :: (cs ++ ['\x7d'])

/-- Whether two texts are the same, or would be with braces around one of them. -/
def EqualUpToBraces (s t : String) : Prop :=
  s = t ∨ s.toList = inBraces t.toList ∨ t.toList = inBraces s.toList

/-! ## Characters at their places -/

/-- Whether a dash has its place at `i`. -/
abbrev IsDashPlace (i : Nat) : Prop := i = 8 ∨ i = 13 ∨ i = 18 ∨ i = 23

/-- Whether the characters from place `k` on are those of a UUID. -/
def FitsFrom (k : Nat) (cs : List Char) : Prop :=
  (cs.zipIdx k).all (fun x => isUuidChar x.2 x.1) = true

section Places

variable {k n m : Nat} {c : Char} {cs ds g rest : List Char}

theorem fitsFrom_cons : FitsFrom k (c :: cs) ↔ isUuidChar k c = true ∧ FitsFrom (k + 1) cs := by
  rw [FitsFrom, List.zipIdx_cons, List.all_cons, Bool.and_eq_true, FitsFrom]

theorem fitsFrom_append : FitsFrom k (cs ++ ds) ↔ FitsFrom k cs ∧ FitsFrom (k + cs.length) ds := by
  rw [FitsFrom, List.zipIdx_append, List.all_append, Bool.and_eq_true, FitsFrom, FitsFrom]

theorem isUuidChar_dash (hplace : IsDashPlace k) : isUuidChar k c = true ↔ c = '-' := by
  rw [isUuidChar, if_pos hplace, beq_iff_eq]

/-- Away from the dashes, the characters are digits. -/
theorem fitsFrom_iff_isHexDigit (h : ∀ i, k ≤ i → i < k + g.length → ¬ IsDashPlace i) :
    FitsFrom k g ↔ ∀ c ∈ g, isHexDigit c = true := by
  induction g generalizing k with
  | nil => exact iff_of_true rfl nofun
  | cons c g ih =>
    rw [List.length_cons] at h
    have hplace : isUuidChar k c = isHexDigit c := if_neg (h k (Nat.le_refl k) (by omega))
    have hrest := ih (k := k + 1) fun i hlow hhigh => h i (by omega) (by omega)
    rw [fitsFrom_cons, hplace, hrest, List.forall_mem_cons]

/-- A group of digits up to the next place of a dash. -/
theorem fitsFrom_group (hlength : g.length = n)
    (hplaces : ∀ i, k ≤ i → i ≤ k + n → (IsDashPlace i ↔ i = k + n)) :
    FitsFrom k (g ++ c :: rest) ↔
      (∀ d ∈ g, isHexDigit d = true) ∧ c = '-' ∧ FitsFrom (k + n + 1) rest := by
  have hdash : IsDashPlace (k + n) :=
    (hplaces (k + n) (Nat.le_add_right k n) (Nat.le_refl (k + n))).2 rfl
  have hdigits : ∀ i, k ≤ i → i < k + g.length → ¬ IsDashPlace i := fun i hlow hhigh hplace =>
    Nat.ne_of_lt (hlength ▸ hhigh) ((hplaces i hlow (by omega)).1 hplace)
  rw [fitsFrom_append, fitsFrom_iff_isHexDigit hdigits, hlength, fitsFrom_cons,
    isUuidChar_dash hdash]

/-- A text that is long enough starts with a group and a dash. -/
theorem exists_group (hlength : cs.length = m + 1 + n)
    (hplaces : ∀ i, k ≤ i → i ≤ k + n → (IsDashPlace i ↔ i = k + n)) (h : FitsFrom k cs) :
    ∃ g rest, cs = g ++ '-' :: rest ∧ g.length = n ∧ rest.length = m ∧
      (∀ c ∈ g, isHexDigit c = true) ∧ FitsFrom (k + n + 1) rest := by
  have hlt : n < cs.length := by omega
  have hcs : cs = cs.take n ++ cs[n] :: cs.drop (n + 1) := by
    rw [← List.drop_eq_getElem_cons hlt, List.take_append_drop]
  have htake : (cs.take n).length = n := by
    rw [List.length_take]
    omega
  have hdrop : (cs.drop (n + 1)).length = m := by
    rw [List.length_drop]
    omega
  rw [hcs, fitsFrom_group htake hplaces] at h
  obtain ⟨hdigits, hdash, hrest⟩ := h
  rw [hdash] at hcs
  exact ⟨_, _, hcs, htake, hdrop, hdigits, hrest⟩

/-- **The characters at their places make up the groups.** -/
theorem isPlainUuid_iff : isPlainUuid cs = true ↔ IsBareUuid cs := by
  have hplain : isPlainUuid cs = true ↔ cs.length = 36 ∧ FitsFrom 0 cs := by
    rw [isPlainUuid, Bool.and_eq_true, beq_iff_eq]
    rfl
  rw [hplain]
  constructor
  · rintro ⟨hlength, hfits⟩
    obtain ⟨a, cs, rfl, ha, hlength, hexa, hfits⟩ := exists_group (n := 8) hlength (by omega) hfits
    obtain ⟨b, cs, rfl, hb, hlength, hexb, hfits⟩ := exists_group (n := 4) hlength (by omega) hfits
    obtain ⟨c, cs, rfl, hc, hlength, hexc, hfits⟩ := exists_group (n := 4) hlength (by omega) hfits
    obtain ⟨d, e, rfl, hd, he, hexd, hfits⟩ := exists_group (n := 4) hlength (by omega) hfits
    have hexe := (fitsFrom_iff_isHexDigit (by omega)).1 hfits
    exact ⟨[a, b, c, d, e], by simp [ha, hb, hc, hd, he],
      List.forall_mem_cons.2 ⟨hexa, List.forall_mem_cons.2 ⟨hexb, List.forall_mem_cons.2 ⟨hexc,
        List.forall_mem_cons.2 ⟨hexd, List.forall_mem_singleton.2 hexe⟩⟩⟩⟩, by simp⟩
  · rintro ⟨groups, hlengths, hhex, rfl⟩
    obtain ⟨a, _, rfl, ha, hlengths⟩ := List.map_eq_cons_iff.1 hlengths
    obtain ⟨b, _, rfl, hb, hlengths⟩ := List.map_eq_cons_iff.1 hlengths
    obtain ⟨c, _, rfl, hc, hlengths⟩ := List.map_eq_cons_iff.1 hlengths
    obtain ⟨d, _, rfl, hd, hlengths⟩ := List.map_eq_cons_iff.1 hlengths
    obtain ⟨e, _, rfl, he, hlengths⟩ := List.map_eq_cons_iff.1 hlengths
    obtain rfl := List.map_eq_nil_iff.1 hlengths
    simp only [List.forall_mem_cons] at hhex
    obtain ⟨hexa, hexb, hexc, hexd, hexe, -⟩ := hhex
    have htext : ['-'].intercalate [a, b, c, d, e] =
        a ++ '-' :: (b ++ '-' :: (c ++ '-' :: (d ++ '-' :: e))) := by simp
    rw [htext]
    refine ⟨by simp [ha, hb, hc, hd, he], ?_⟩
    refine (fitsFrom_group ha (by omega)).2 ⟨hexa, rfl, ?_⟩
    refine (fitsFrom_group hb (by omega)).2 ⟨hexb, rfl, ?_⟩
    refine (fitsFrom_group hc (by omega)).2 ⟨hexc, rfl, ?_⟩
    refine (fitsFrom_group hd (by omega)).2 ⟨hexd, rfl, ?_⟩
    exact (fitsFrom_iff_isHexDigit (by omega)).2 hexe

end Places

/-! ## Braces -/

section Braces

variable {s t s' t' : String} {cs u v : List Char}

theorem IsBareUuid.isHexDigit_of_head? (h : IsBareUuid cs) :
    ∃ c ∈ cs.head?, isHexDigit c = true := by
  obtain ⟨groups, hlengths, hhex, rfl⟩ := h
  obtain ⟨g, gs, rfl, hg, -⟩ := List.map_eq_cons_iff.1 hlengths
  obtain ⟨c, g, rfl⟩ := List.exists_cons_of_length_eq_add_one hg
  have hc : isHexDigit c = true := hhex _ (List.mem_cons_self ..) c (List.mem_cons_self ..)
  exact ⟨c, by cases gs <;> rfl, hc⟩

/-- A UUID without braces does not start with one. -/
theorem not_isBareUuid_inBraces : ¬ IsBareUuid (inBraces u) := by
  intro h
  obtain ⟨c, hc, hhex⟩ := h.isHexDigit_of_head?
  cases hc
  revert hhex
  decide

theorem inBraces_inj : inBraces u = inBraces v ↔ u = v := by
  rw [inBraces, inBraces, List.cons_inj_right, List.append_left_inj]

theorem withoutBraces_inBraces (u : List Char) : withoutBraces (inBraces u) = u := by
  simp [withoutBraces, inBraces]

theorem withoutBraces_of_isBareUuid (h : IsBareUuid u) : withoutBraces u = u := by
  rcases withoutBraces_cases u with ⟨inner, hu, -⟩ | ⟨hwhole, -⟩
  · have hbraces : u = inBraces inner := hu
    exact absurd (hbraces ▸ h) not_isBareUuid_inBraces
  · exact hwhole

/-- A text is what is between its braces, with or without these. -/
theorem eq_withoutBraces_or_inBraces (cs : List Char) :
    cs = withoutBraces cs ∨ cs = inBraces (withoutBraces cs) := by
  rcases withoutBraces_cases cs with ⟨inner, hcs, hinner⟩ | ⟨hwhole, -⟩
  · exact .inr (hinner.symm ▸ hcs)
  · exact .inl hwhole.symm

theorem isUuid_iff :
    isUuid s = true ↔ ∃ u, IsBareUuid u ∧ (s.toList = u ∨ s.toList = inBraces u) := by
  rw [isUuid, isPlainUuid_iff]
  constructor
  · exact fun h => ⟨_, h, eq_withoutBraces_or_inBraces s.toList⟩
  · rintro ⟨u, hu, hs | hs⟩
    · rwa [hs, withoutBraces_of_isBareUuid hu]
    · rwa [hs, withoutBraces_inBraces]

/-! ## Normal forms -/

/-- **The normal form of a UUID is in braces, and only UUIDs have one.** -/
theorem normalizeUuid_eq_some : normalizeUuid s = some t ↔
    ∃ u, IsBareUuid u ∧ (s.toList = u ∨ s.toList = inBraces u) ∧ t.toList = inBraces u := by
  constructor
  · intro h
    unfold normalizeUuid at h
    split at h
    · next huuid =>
      cases h
      rw [isUuid, isPlainUuid_iff] at huuid
      exact ⟨_, huuid, eq_withoutBraces_or_inBraces s.toList, String.toList_ofList⟩
    · cases h
  · rintro ⟨u, hu, hs, ht⟩
    have hinner : withoutBraces s.toList = u := by
      rcases hs with hs | hs
      · rw [hs, withoutBraces_of_isBareUuid hu]
      · rw [hs, withoutBraces_inBraces]
    have huuid : isUuid s = true := isUuid_iff.2 ⟨u, hu, hs⟩
    rw [normalizeUuid, if_pos huuid, hinner, ← String.ofList_toList (s := t), ht]
    rfl

theorem isSome_normalizeUuid (s : String) : (normalizeUuid s).isSome = isUuid s := by
  unfold normalizeUuid
  split
  · next h => rw [h]; rfl
  · next h => rw [Bool.eq_false_iff.2 h]; rfl

/-- **A normal form is its own.** -/
theorem normalizeUuid_normalizeUuid (h : normalizeUuid s = some t) : normalizeUuid t = some t := by
  obtain ⟨u, hu, -, ht⟩ := normalizeUuid_eq_some.1 h
  exact normalizeUuid_eq_some.2 ⟨u, hu, .inr ht, ht⟩

/-- **UUIDs have one normal form exactly if they are equal up to braces.** -/
theorem normalForm_eq_iff (h : normalizeUuid s = some t) (h' : normalizeUuid s' = some t') :
    t = t' ↔ EqualUpToBraces s s' := by
  obtain ⟨u, hu, hs, ht⟩ := normalizeUuid_eq_some.1 h
  obtain ⟨v, hv, hs', ht'⟩ := normalizeUuid_eq_some.1 h'
  rw [← String.toList_inj, ht, ht', inBraces_inj, EqualUpToBraces, ← String.toList_inj]
  constructor
  · rintro rfl
    rcases hs with hs | hs <;> rcases hs' with hs' | hs' <;> simp [hs, hs']
  · -- A text in braces is no UUID that has none.
    have hne {w w' : List Char} (hw : IsBareUuid w) : w ≠ inBraces w' := fun heq =>
      not_isBareUuid_inBraces (heq ▸ hw)
    rcases hs with hs | hs <;> rcases hs' with hs' | hs' <;>
      simp [hs, hs', inBraces_inj, hne hu, hne hv, (hne hv).symm, eq_comm]

end Braces

/-- **The normal form of a UUID is canonical.**  A text has one exactly if it is a UUID, with or
without braces, and it is that UUID in braces, with the digits as they are.  It is its own normal
form, and two UUIDs have the same one exactly if they are equal up to braces.  A reader that goes by
bytes takes the same texts, and cuts no character. -/
theorem normalizeUuid_is_canonical (s t : String) :
    (normalizeUuid s = some t ↔
      ∃ u, IsBareUuid u ∧ (s.toList = u ∨ s.toList = inBraces u) ∧ t.toList = inBraces u) ∧
    ((normalizeUuid s).isSome = true ↔
      ∃ u, IsBareUuid u ∧ (s.toList = u ∨ s.toList = inBraces u)) ∧
    (normalizeUuid s = some t → normalizeUuid t = some t ∧
      ∀ s' t', normalizeUuid s' = some t' → (t = t' ↔ EqualUpToBraces s s')) ∧
    Checked.isUuid s = .ok (normalizeUuid s).isSome := by
  refine ⟨normalizeUuid_eq_some, ?_, fun h => ⟨normalizeUuid_normalizeUuid h, fun s' t' h' =>
    normalForm_eq_iff h h'⟩, ?_⟩
  · rw [isSome_normalizeUuid, isUuid_iff]
  · rw [isSome_normalizeUuid, Checked.isUuid_eq]

/-- A UUID with letters in both cases, in braces and without them. -/
theorem normalForm_of_both_cases :
    let bare := "fbcdf284-5345-416B-a589-7B5fcaa87673"
    let braced := "\x7bfbcdf284-5345-416B-a589-7B5fcaa87673\x7d"
    IsBareUuid bare.toList ∧ normalizeUuid bare = some braced ∧
    normalizeUuid braced = some braced ∧ EqualUpToBraces bare braced := by
  intro bare braced
  have hbare : IsBareUuid bare.toList := isPlainUuid_iff.1 (by decide +kernel)
  obtain ⟨hiff, -, hcanonical, -⟩ := normalizeUuid_is_canonical bare braced
  have hform : normalizeUuid bare = some braced := hiff.2 ⟨_, hbare, .inl rfl, by decide⟩
  obtain ⟨hself, hequal⟩ := hcanonical hform
  exact ⟨hbare, hform, hself, (hequal braced braced hself).1 rfl⟩

/-- A letter of two bytes among the digits is refused, though the bytes are as many as those of a
UUID. -/
example : normalizeUuid "fbcdf28é5345-416b-a589-7b5fcaa87673" = none := by decide +kernel

end VmControl
