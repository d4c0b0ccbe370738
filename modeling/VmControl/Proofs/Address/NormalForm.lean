import VmControl.Proofs.Address.Ipv6

/-!
# Normal forms that stay as they are

Zeros are written out for a text that has two colons in a row, none of them again behind these two,
and at most seven groups around them.  Every other text is put in upper case only.  The outcome has
no two colons in a row any more, unless a third one stood behind the two: it starts a group that is
empty, so that the zeros are followed by two colons again, and these take more zeros when the
outcome is put into its normal form once more.

## Main definitions

* `Ipv6.IsShortened`: a text has zeros left out between what is in front of two colons and what is
  behind them.

## Main statements

* `Ipv6.IsShortened.pair_infix_writeOut`: where zeros leave two colons in a row.
* `Ipv6.map_writeOut_eq_iff`: which texts are put in upper case only.
* `Ipv6.normalizeIp_normalizeIp_iff`: which texts have a normal form that is its own.
-/

namespace VmControl.Ipv6

open Text

/-- Whether a text has zeros left out between `head` and `tail`: the first two colons in a row stand
there, none are in a row behind those, and at most seven groups are around them. -/
structure IsShortened (cs head tail : List Char) : Prop where
  text : cs = head ++ ':' :: ':' :: tail
  first : ¬ [':', ':'] <:+: head ++ [':']
  once : ¬ [':', ':'] <:+: tail
  few : (ipGroups head).length + (ipGroups tail).length ≤ 7

/-- Groups with zeros between them. -/
def spread (front back : List (List Char)) (zeros : Nat) : List Char :=
  [':'].intercalate (front ++ (List.replicate zeros ['0'] ++ back))

section Groups

variable {cs head tail : List Char} {front back : List (List Char)}

theorem intercalate_ipGroups (cs : List Char) : [':'].intercalate (ipGroups cs) = cs := by
  rw [ipGroups]
  split
  · next hnil => exact hnil.symm
  · exact intercalate_fields ':' cs

theorem colon_notMem_of_mem_ipGroups {g : List Char} (h : g ∈ ipGroups cs) : ':' ∉ g := by
  rw [ipGroups] at h
  split at h
  · cases h
  · exact notMem_of_mem_fields h

theorem ipGroups_colon (cs : List Char) : ipGroups (':' :: cs) = [] :: fields ':' cs := rfl

/-- There are at most as many groups as fields: the text without groups has one that is empty. -/
theorem length_ipGroups_le (cs : List Char) : (ipGroups cs).length ≤ (fields ':' cs).length := by
  rw [ipGroups]
  split
  · exact Nat.zero_le _
  · exact Nat.le_refl _

/-! ## Two colons in a row -/

theorem isField_of_mem_zeros {n : Nat} : ∀ g ∈ List.replicate n ['0'], IsField ':' g := by
  intro g hg
  rw [List.eq_of_mem_replicate hg]
  exact isGroup_zero.isField

theorem head?_zeros (n : Nat) (back : List (List Char)) :
    ([':'].intercalate (List.replicate (n + 1) ['0'] ++ back)).head? = some '0' := by
  rw [List.replicate_succ, List.cons_append]
  cases List.replicate n ['0'] ++ back <;> simp

/-- Zeros followed by groups have two colons in a row only if those start with one. -/
theorem pair_infix_zeros (n : Nat) (back : List (List Char)) :
    [':', ':'] <:+: [':'].intercalate (List.replicate (n + 1) ['0'] ++ back) ↔
      [':', ':'] <:+: ':' :: [':'].intercalate back := by
  have hzeros : List.replicate (n + 1) ['0'] ≠ [] := by simp
  by_cases hback : back = []
  · subst hback
    rw [List.append_nil]
    exact iff_of_false (not_pair_infix_intercalate isField_of_mem_zeros) not_pair_infix_singleton
  · rw [intercalate_append hzeros hback, pair_infix_append_cons]
    exact or_iff_right (not_pair_infix_intercalate_concat isField_of_mem_zeros)

theorem spread_fields (front : List (List Char)) (n : Nat) (cs : List Char) :
    spread front (fields ':' cs) (n + 1) = spread front [] (n + 1) ++ ':' :: cs := by
  have hzeros : front ++ List.replicate (n + 1) ['0'] ≠ [] := by simp
  rw [spread, spread, List.append_nil, ← List.append_assoc,
    intercalate_append hzeros (fields_ne_nil ':' cs), intercalate_fields]

theorem length_ipGroups_spread (hfront : ∀ g ∈ front, ':' ∉ g) (n : Nat) :
    (ipGroups (spread front [] (n + 1))).length ≤ front.length + (n + 1) := by
  have hcolon : ∀ g ∈ front ++ List.replicate (n + 1) ['0'], ':' ∉ g :=
    List.forall_mem_append.2 ⟨hfront, fun g hg => (isField_of_mem_zeros g hg).notMem⟩
  have hfields : fields ':' (spread front [] (n + 1)) = front ++ List.replicate (n + 1) ['0'] :=
    fields_eq_iff.2 ⟨by simp, hcolon, by rw [spread, List.append_nil]⟩
  have hle := length_ipGroups_le (spread front [] (n + 1))
  rwa [hfields, List.length_append, List.length_replicate] at hle

/-- **Zeros leave two colons in a row only if the groups behind them start with a colon.** -/
theorem pair_infix_spread (n : Nat) (hfront : ¬ [':', ':'] <:+: [':'].intercalate front ++ [':']) :
    [':', ':'] <:+: spread front back (n + 1) ↔
      [':', ':'] <:+: ':' :: [':'].intercalate back := by
  rw [← pair_infix_zeros n back, spread]
  have hzeros : List.replicate (n + 1) ['0'] ++ back ≠ [] := by simp
  by_cases hempty : front = []
  · rw [hempty, List.nil_append]
  · rw [intercalate_append hempty hzeros, pair_infix_append_cons, or_iff_right hfront,
      pair_infix_cons, head?_zeros]
    simp

/-- Every zero that is written out is one. -/
theorem count_zero_spread (n : Nat) : (spread front back n).count '0' =
    ([':'].intercalate front).count '0' + n + ([':'].intercalate back).count '0' := by
  have hne : '0' ≠ ':' := by decide
  rw [spread, count_intercalate hne, count_intercalate hne, count_intercalate hne,
    List.flatten_append, List.flatten_append, List.flatten_replicate_singleton, List.count_append,
    List.count_append, List.count_replicate_self, Nat.add_assoc]

end Groups

/-! ## Texts that zeros are written out for -/

section Shortened

variable {cs head tail : List Char}

theorem writeOut_of_not_shortened (h : ¬ ∃ head tail, IsShortened cs head tail) :
    writeOut cs = cs := by
  rw [writeOut]
  split
  · rfl
  · next head tail hcut =>
    obtain ⟨htext, hfirst⟩ := cutPair_eq_some.1 hcut
    refine if_pos ?_
    by_contra hfew
    rw [Bool.or_eq_true, decide_eq_true_eq, not_or, Bool.not_eq_true, hasDoubleColon_eq_false,
      Nat.not_le] at hfew
    exact h ⟨head, tail, htext, hfirst, hfew.1, Nat.le_of_lt_succ hfew.2⟩

/-- There is one place only where zeros can be left out. -/
theorem IsShortened.cut_eq (h : IsShortened cs head tail) :
    cutPair ':' ':' cs = some (head, tail) := cutPair_eq_some.2 ⟨h.text, h.first⟩

theorem IsShortened.writeOut_eq (h : IsShortened cs head tail) :
    writeOut cs = spread (ipGroups head) (ipGroups tail)
      (8 - (ipGroups head).length - (ipGroups tail).length) := by
  have hfew : ¬ 8 ≤ (ipGroups head).length + (ipGroups tail).length :=
    Nat.not_le_of_lt (Nat.lt_succ_of_le h.few)
  simp only [writeOut, h.cut_eq, hasDoubleColon_eq_false.2 h.once, Bool.false_or,
    decide_eq_true_eq, if_neg hfew, spread, List.append_assoc]

/-- At least one zero is written out. -/
theorem IsShortened.exists_zeros (h : IsShortened cs head tail) :
    ∃ n, 8 = (ipGroups head).length + (ipGroups tail).length + (n + 1) ∧
      writeOut cs = spread (ipGroups head) (ipGroups tail) (n + 1) := by
  have hfew := h.few
  have hzeros : 8 - (ipGroups head).length - (ipGroups tail).length =
      7 - (ipGroups head).length - (ipGroups tail).length + 1 := by omega
  exact ⟨7 - (ipGroups head).length - (ipGroups tail).length, by omega, hzeros ▸ h.writeOut_eq⟩

theorem IsShortened.count_zero_lt (h : IsShortened cs head tail) :
    cs.count '0' < (writeOut cs).count '0' := by
  obtain ⟨n, -, hwritten⟩ := h.exists_zeros
  rw [hwritten, count_zero_spread, intercalate_ipGroups, intercalate_ipGroups, h.text,
    List.count_append, List.count_cons_of_ne (by decide), List.count_cons_of_ne (by decide)]
  omega

theorem count_zero_map_toUpper (cs : List Char) :
    (cs.map Char.toUpper).count '0' = cs.count '0' := by
  induction cs with
  | nil => rfl
  | cons c cs ih => simp only [List.map_cons, List.count_cons, ih, beq_iff_eq, toUpper_eq_zero]

/-- **A text is put in upper case only, exactly if no zeros are left out of it.** -/
theorem map_writeOut_eq_iff : (writeOut cs).map Char.toUpper = cs.map Char.toUpper ↔
    ¬ ∃ head tail, IsShortened cs head tail := by
  constructor
  · rintro hsame ⟨head, tail, h⟩
    have hcount := congrArg (List.count '0') hsame
    rw [count_zero_map_toUpper, count_zero_map_toUpper] at hcount
    exact Nat.ne_of_gt h.count_zero_lt hcount
  · intro h
    rw [writeOut_of_not_shortened h]

/-! ## What is written out -/

theorem IsShortened.first_groups (h : IsShortened cs head tail) :
    ¬ [':', ':'] <:+: [':'].intercalate (ipGroups head) ++ [':'] := by
  rw [intercalate_ipGroups]
  exact h.first

/-- **What is written out has no two colons in a row, unless a third one stood behind the two.** -/
theorem IsShortened.pair_infix_writeOut (h : IsShortened cs head tail) :
    [':', ':'] <:+: writeOut cs ↔ tail.head? = some ':' := by
  obtain ⟨n, -, hwritten⟩ := h.exists_zeros
  rw [hwritten, pair_infix_spread n h.first_groups, intercalate_ipGroups, pair_infix_cons,
    or_iff_left h.once]
  exact and_iff_right rfl

/-- A third colon stays behind the zeros, with the one that they are joined by. -/
theorem IsShortened.again (h : IsShortened cs head (':' :: tail)) :
    ∃ front, IsShortened (writeOut cs) front tail := by
  obtain ⟨n, hlength, hwritten⟩ := h.exists_zeros
  refine ⟨spread (ipGroups head) [] (n + 1), ?_, ?_, ?_, ?_⟩
  · exact hwritten.trans (spread_fields (ipGroups head) n (':' :: tail))
  · -- Another colon makes the zeros end in a group that is empty.
    have hcolon : spread (ipGroups head) [[]] (n + 1) = spread (ipGroups head) [] (n + 1) ++ [':'] :=
      spread_fields (ipGroups head) n []
    rw [← hcolon, pair_infix_spread n h.first_groups]
    exact not_pair_infix_singleton
  · exact fun hpair => h.once (pair_infix_cons.2 (.inr hpair))
  · have hfront := length_ipGroups_spread
      (fun g (hg : g ∈ ipGroups head) => colon_notMem_of_mem_ipGroups hg) n
    have htail := length_ipGroups_le tail
    rw [ipGroups_colon, List.length_cons] at hlength
    omega

/-- **What is written out is shortened again exactly if a third colon stood behind the two.** -/
theorem isShortened_writeOut_iff : (∃ front back, IsShortened (writeOut cs) front back) ↔
    ∃ head tail, IsShortened cs head (':' :: tail) := by
  constructor
  · rintro ⟨front, back, hagain⟩
    by_cases h : ∃ head tail, IsShortened cs head tail
    · obtain ⟨head, tail, h⟩ := h
      have hpair : [':', ':'] <:+: writeOut cs := ⟨front, back, by rw [hagain.text]; simp⟩
      obtain ⟨tail', rfl⟩ := List.head?_eq_some_iff.1 (h.pair_infix_writeOut.1 hpair)
      exact ⟨head, tail', h⟩
    · rw [writeOut_of_not_shortened h] at hagain
      exact absurd ⟨front, back, hagain⟩ h
  · rintro ⟨head, tail, h⟩
    obtain ⟨front, hagain⟩ := h.again
    exact ⟨front, tail, hagain⟩

end Shortened

/-- A text with a colon has one in its normal form. -/
theorem colon_mem_normalizeIp {s : String} (h : ':' ∈ s.toList) : ':' ∈ (normalizeIp s).toList := by
  rw [toList_normalizeIp h, List.mem_map]
  refine ⟨':', ?_, by decide⟩
  by_cases hshort : ∃ head tail, IsShortened s.toList head tail
  · obtain ⟨head, tail, hshort⟩ := hshort
    obtain ⟨n, hlength, hwritten⟩ := hshort.exists_zeros
    rw [hwritten, spread]
    refine sep_mem_intercalate ?_
    rw [List.length_append, List.length_append, List.length_replicate]
    omega
  · rwa [writeOut_of_not_shortened hshort]

/-- The normal form of a normal form has the zeros written out twice. -/
theorem toList_normalizeIp_twice {s : String} (h : ':' ∈ s.toList) :
    (normalizeIp (normalizeIp s)).toList = (writeOut (writeOut s.toList)).map Char.toUpper := by
  rw [toList_normalizeIp (colon_mem_normalizeIp h), toList_normalizeIp h, map_writeOut,
    List.map_map]
  exact List.map_congr_left fun c _ => toUpper_toUpper c

/-- **The normal form of a text is its own normal form, unless three colons in a row stand where
zeros are left out.**  Of the texts with a colon, those that zeros are left out of have a normal form
that differs from them by more than upper case, and no others have. -/
theorem normalizeIp_normalizeIp_iff (s : String) :
    (normalizeIp (normalizeIp s) = normalizeIp s ↔
      ¬ ∃ head tail, IsShortened s.toList head (':' :: tail)) ∧
    (':' ∈ s.toList → ((normalizeIp s).toList = s.toList.map Char.toUpper ↔
      ¬ ∃ head tail, IsShortened s.toList head tail)) := by
  constructor
  · by_cases hcolon : ':' ∈ s.toList
    · rw [← String.toList_inj, toList_normalizeIp_twice hcolon, toList_normalizeIp hcolon,
        map_writeOut_eq_iff, isShortened_writeOut_iff]
    · rw [normalizeIp_of_notMem hcolon, normalizeIp_of_notMem hcolon]
      refine iff_of_true rfl ?_
      rintro ⟨head, tail, h⟩
      exact hcolon (by rw [h.text]; simp)
  · intro hcolon
    rw [toList_normalizeIp hcolon, map_writeOut_eq_iff]

/-- Zeros are written out for `fe80::1` once and for all, and not for a text with two gaps. -/
theorem normal_form_of_link_local :
    normalizeIp (normalizeIp "fe80::1") = normalizeIp "fe80::1" ∧
    (normalizeIp "fe80::a::1").toList = "fe80::a::1".toList.map Char.toUpper := by
  constructor
  · refine (normalizeIp_normalizeIp_iff "fe80::1").1.2 ?_
    rintro ⟨head, tail, h⟩
    cases h.cut_eq
  · refine ((normalizeIp_normalizeIp_iff "fe80::a::1").2 (by decide)).2 ?_
    rintro ⟨head, tail, h⟩
    cases h.cut_eq
    exact h.once ⟨['a'], ['1'], rfl⟩

/-- `:::` has no normal form of its own, and zeros are written out for it. -/
theorem normal_form_of_three_colons :
    normalizeIp ":::" = "0:0:0:0:0:0::" ∧
    normalizeIp (normalizeIp ":::") = "0:0:0:0:0:0:0:0" ∧
    (normalizeIp ":::").toList ≠ ":::".toList.map Char.toUpper := by
  decide +kernel

end VmControl.Ipv6
