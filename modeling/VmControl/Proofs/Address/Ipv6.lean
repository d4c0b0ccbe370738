import Mathlib.Data.Nat.Digits.Lemmas
import VmControl.Proofs.Text.Ascii
import VmControl.Proofs.Text.Cut
import VmControl.Value.Address

/-!
# The address that a text stands for

An IPv6 address is eight groups of sixteen bits, and a text may leave out a run of groups that are
zero.  Writing the run out and the digits in upper case leaves the address the same, wherever the
run stands and however many groups are around it.

## Main definitions

* `Ipv6.Denotes`: the address that a text of hexadecimal groups stands for.
* `Ipv6.IsWrittenOut`: a text of eight groups in upper case.
* `Ipv6.writeOut`: the run of zeros written out, whatever the case of the digits.

## Main statements

* `Ipv6.writeOut_short`: between two colons stand as many zeros as groups are missing.
* `Ipv6.Denotes.unique`: a text stands for one address.
* `Ipv6.normalizeIp_keeps_address`: the normal form of a text stands for the same address.
-/

namespace VmControl.Ipv6

open Text

/-! ## Digits and groups -/

/-- Whether a text is a group of an address: one to four hexadecimal digits. -/
structure IsGroup (g : List Char) : Prop where
  ne_nil : g ≠ []
  length_le : g.length ≤ 4
  isHexDigit : ∀ c ∈ g, isHexDigit c = true

/-- The number that a hexadecimal digit stands for. -/
def digitValue (c : Char) : Nat :=
  if c ≤ '9' then c.toNat - '0'.toNat
  else if c ≤ 'F' then c.toNat - 'A'.toNat + 10
  else c.toNat - 'a'.toNat + 10

/-- The number that a group stands for. -/
def groupValue (g : List Char) : Nat := Nat.ofDigits 16 (g.reverse.map digitValue)

/-- The number that groups stand for, most significant first. -/
def groupsValue (gs : List (List Char)) : Nat := Nat.ofDigits (2 ^ 16) (gs.reverse.map groupValue)

/-- What putting a hexadecimal digit in upper case leaves the same, and what it does. -/
structure UpperDigit (c : Char) : Prop where
  isHexDigit : isHexDigit c.toUpper = true
  value : digitValue c.toUpper = digitValue c
  value_lt : digitValue c < 16
  ne_colon : c ≠ ':'

theorem upperDigit_of_isHexDigit {c : Char} (h : isHexDigit c = true) : UpperDigit c := by
  have hsmall : c.toNat < 128 := by
    simp only [VmControl.isHexDigit, Char.isDigit, Char.le_def, UInt32.le_iff_toNat_le,
      Bool.or_eq_true, Bool.and_eq_true, decide_eq_true_eq] at h
    rcases h with (h | h) | h <;> exact Nat.lt_of_le_of_lt h.2 (by decide)
  have hall := of_forall_ofNat (P := fun c => VmControl.isHexDigit c = true →
      VmControl.isHexDigit c.toUpper = true ∧ digitValue c.toUpper = digitValue c ∧
      digitValue c < 16 ∧ c ≠ ':') (by decide +kernel) hsmall
  obtain ⟨hhex, hvalue, hlt, hne⟩ := hall h
  exact ⟨hhex, hvalue, hlt, hne⟩

theorem isGroup_zero : IsGroup ['0'] :=
  ⟨List.cons_ne_nil _ _, by decide, List.forall_mem_singleton.2 (by decide)⟩

namespace IsGroup

variable {g : List Char}

theorem isField (h : IsGroup g) : IsField ':' g :=
  ⟨h.ne_nil, fun hmem => (upperDigit_of_isHexDigit (h.isHexDigit ':' hmem)).ne_colon rfl⟩

theorem map_toUpper (h : IsGroup g) : IsGroup (g.map Char.toUpper) where
  ne_nil hnil := h.ne_nil (List.map_eq_nil_iff.1 hnil)
  length_le := by rw [List.length_map]; exact h.length_le
  isHexDigit := List.forall_mem_map.2 fun c hc =>
    (upperDigit_of_isHexDigit (h.isHexDigit c hc)).isHexDigit

theorem value_map (h : IsGroup g) : groupValue (g.map Char.toUpper) = groupValue g := by
  rw [groupValue, groupValue, ← List.map_reverse, List.map_map]
  refine congrArg _ (List.map_congr_left fun c hc => ?_)
  exact (upperDigit_of_isHexDigit (h.isHexDigit c (List.mem_reverse.1 hc))).value

/-- A group has sixteen bits. -/
theorem value_lt (h : IsGroup g) : groupValue g < 2 ^ 16 := by
  have hdigits : ∀ d ∈ g.reverse.map digitValue, d < 16 :=
    List.forall_mem_map.2 fun c hc =>
      (upperDigit_of_isHexDigit (h.isHexDigit c (List.mem_reverse.1 hc))).value_lt
  calc groupValue g
      < 16 ^ (g.reverse.map digitValue).length :=
        Nat.ofDigits_lt_base_pow_length (by decide) hdigits
    _ = 16 ^ g.length := by rw [List.length_map, List.length_reverse]
    _ ≤ 16 ^ 4 := Nat.pow_le_pow_right (by decide) h.length_le
    _ = 2 ^ 16 := by decide

end IsGroup

section Groups

variable {gs hs : List (List Char)}

theorem isField_of_isGroup (h : ∀ g ∈ gs, IsGroup g) : ∀ g ∈ gs, IsField ':' g :=
  fun g hg => (h g hg).isField

/-- The groups in front stand for the higher bits. -/
theorem groupsValue_append (gs hs : List (List Char)) :
    groupsValue (gs ++ hs) = groupsValue gs * 2 ^ (16 * hs.length) + groupsValue hs := by
  rw [groupsValue, List.reverse_append, List.map_append, Nat.ofDigits_append, List.length_map,
    List.length_reverse, ← Nat.pow_mul, Nat.add_comm, Nat.mul_comm]
  rfl

theorem groupsValue_replicate_zero (n : Nat) : groupsValue (List.replicate n ['0']) = 0 := by
  rw [groupsValue, List.reverse_replicate, List.map_replicate]
  exact Nat.ofDigits_replicate_zero

theorem groupsValue_lt (h : ∀ g ∈ gs, IsGroup g) : groupsValue gs < 2 ^ (16 * gs.length) := by
  have hgroups : ∀ d ∈ gs.reverse.map groupValue, d < 2 ^ 16 :=
    List.forall_mem_map.2 fun g hg => (h g (List.mem_reverse.1 hg)).value_lt
  calc groupsValue gs
      < (2 ^ 16) ^ (gs.reverse.map groupValue).length :=
        Nat.ofDigits_lt_base_pow_length (by decide) hgroups
    _ = 2 ^ (16 * gs.length) := by rw [List.length_map, List.length_reverse, ← Nat.pow_mul]

theorem groupsValue_map_toUpper (h : ∀ g ∈ gs, IsGroup g) :
    groupsValue (gs.map (List.map Char.toUpper)) = groupsValue gs := by
  rw [groupsValue, groupsValue, ← List.map_reverse, List.map_map]
  refine congrArg _ (List.map_congr_left fun g hg => ?_)
  exact (h g (List.mem_reverse.1 hg)).value_map

theorem isGroup_map_toUpper (h : ∀ g ∈ gs, IsGroup g) :
    ∀ g ∈ gs.map (List.map Char.toUpper), IsGroup g :=
  List.forall_mem_map.2 fun g hg => (h g hg).map_toUpper

end Groups

/-! ## Texts of addresses -/

/-- The address that a text of hexadecimal groups stands for. -/
inductive Denotes : List Char → Nat → Prop where
  /-- All eight groups are there. -/
  | full {gs : List (List Char)} (hgs : ∀ g ∈ gs, IsGroup g) (hlength : gs.length = 8) :
    Denotes ([':'].intercalate gs) (groupsValue gs)
  /-- The groups between two colons in a row are left out, and are zero.  Those in front are the
  highest ones of the eight, those behind the lowest. -/
  | short {front back : List (List Char)} (hfront : ∀ g ∈ front, IsGroup g)
    (hback : ∀ g ∈ back, IsGroup g) (hlength : front.length + back.length ≤ 7) :
    Denotes ([':'].intercalate front ++ ':' :: ':' :: [':'].intercalate back)
      (groupsValue front * 2 ^ (16 * (8 - front.length)) + groupsValue back)

/-- Whether a text is an address written out: eight groups in upper case with single colons between
them. -/
structure IsWrittenOut (cs : List Char) (gs : List (List Char)) : Prop where
  text : cs = [':'].intercalate gs
  length : gs.length = 8
  isGroup : ∀ g ∈ gs, IsGroup g
  upper : ∀ c ∈ cs, c.toUpper = c
  single : ¬ [':', ':'] <:+: cs

/-! ## Writing out -/

theorem ipGroups_intercalate {gs : List (List Char)} (hgs : ∀ g ∈ gs, IsField ':' g) :
    ipGroups ([':'].intercalate gs) = gs := by
  unfold ipGroups
  cases gs with
  | nil => exact if_pos rfl
  | cons g gs =>
    have hfields := fields_intercalate (List.cons_ne_nil g gs) hgs
    split
    · next hnil =>
      -- An empty text has an empty field.
      rw [hnil] at hfields
      exact absurd (hgs [] (hfields ▸ List.mem_singleton_self [])) fun h => h.ne_nil rfl
    · exact hfields

theorem hasDoubleColon_eq_false {cs : List Char} :
    hasDoubleColon cs = false ↔ ¬ [':', ':'] <:+: cs := by
  rw [hasDoubleColon, Option.isSome_eq_false_iff, Option.isNone_iff_eq_none, cutPair_eq_none]

/-- The run of zeros written out, whatever the case of the digits. -/
def writeOut (cs : List Char) : List Char :=
  match cutPair ':' ':' cs with
  | none => cs
  | some (head, tail) =>
    if hasDoubleColon tail || 8 ≤ (ipGroups head).length + (ipGroups tail).length then cs
    else
      [':'].intercalate (ipGroups head ++
        List.replicate (8 - (ipGroups head).length - (ipGroups tail).length) ['0'] ++ ipGroups tail)

theorem map_ipGroups (cs : List Char) :
    ipGroups (cs.map Char.toUpper) = (ipGroups cs).map (List.map Char.toUpper) := by
  cases cs with
  | nil => rfl
  | cons c cs => exact fields_map toUpper_eq_colon (c :: cs)

theorem hasDoubleColon_map (cs : List Char) :
    hasDoubleColon (cs.map Char.toUpper) = hasDoubleColon cs := by
  rw [hasDoubleColon, cutPair_map toUpper_eq_colon toUpper_eq_colon, Option.isSome_map]
  rfl

/-- The case of the digits does not matter to where zeros are written out. -/
theorem map_writeOut (cs : List Char) :
    writeOut (cs.map Char.toUpper) = (writeOut cs).map Char.toUpper := by
  rw [writeOut, writeOut, cutPair_map toUpper_eq_colon toUpper_eq_colon]
  cases cutPair ':' ':' cs with
  | none => rfl
  | some p =>
    simp only [Option.map_some, hasDoubleColon_map, map_ipGroups, List.length_map]
    split
    · rfl
    · rw [map_intercalate (by decide), List.map_append, List.map_append, List.map_replicate]
      rfl

theorem normalizeIp_of_notMem {s : String} (h : ':' ∉ s.toList) : normalizeIp s = s := if_pos h

/-- **The normal form of a text with a colon**: its zeros are written out, and it is in upper
case. -/
theorem toList_normalizeIp {s : String} (h : ':' ∈ s.toList) :
    (normalizeIp s).toList = (writeOut s.toList).map Char.toUpper := by
  rw [← map_writeOut, writeOut]
  simp only [normalizeIp, if_neg (not_not_intro h)]
  cases cutPair ':' ':' (s.toList.map Char.toUpper) with
  | none => exact String.toList_ofList
  | some p =>
    simp only
    split
    · exact String.toList_ofList
    · exact String.toList_ofList

/-- A text without two colons in a row is left as it is. -/
theorem writeOut_of_not_infix {cs : List Char} (h : ¬ [':', ':'] <:+: cs) : writeOut cs = cs := by
  rw [writeOut, cutPair_eq_none.2 h]

section Short

variable {front back : List (List Char)}

/-- **Between two colons in a row stand as many zeros as groups are missing.** -/
theorem writeOut_short (hfront : ∀ g ∈ front, IsField ':' g) (hback : ∀ g ∈ back, IsField ':' g)
    (hlength : front.length + back.length ≤ 7) :
    writeOut ([':'].intercalate front ++ ':' :: ':' :: [':'].intercalate back) =
      [':'].intercalate
        (front ++ List.replicate (8 - front.length - back.length) ['0'] ++ back) := by
  have honce : hasDoubleColon ([':'].intercalate back) = false :=
    hasDoubleColon_eq_false.2 (not_pair_infix_intercalate hback)
  rw [writeOut, cutPair_intercalate hfront]
  simp only [ipGroups_intercalate hfront, ipGroups_intercalate hback, honce, Bool.false_or]
  exact if_neg (by simpa using Nat.lt_succ_of_le hlength)

/-- The zeros that are written out leave the groups in front where they were. -/
theorem groupsValue_short (hlength : front.length + back.length ≤ 7) :
    groupsValue (front ++ List.replicate (8 - front.length - back.length) ['0'] ++ back) =
      groupsValue front * 2 ^ (16 * (8 - front.length)) + groupsValue back := by
  have hbits : 16 * (8 - front.length - back.length) + 16 * back.length =
      16 * (8 - front.length) := by omega
  rw [groupsValue_append, groupsValue_append, groupsValue_replicate_zero, List.length_replicate,
    Nat.add_zero, Nat.mul_assoc, ← Nat.pow_add, hbits]

theorem isGroup_short (hfront : ∀ g ∈ front, IsGroup g) (hback : ∀ g ∈ back, IsGroup g) (n : Nat) :
    ∀ g ∈ front ++ List.replicate n ['0'] ++ back, IsGroup g := by
  intro g hg
  rcases List.mem_append.1 hg with hg | hg
  · rcases List.mem_append.1 hg with hg | hg
    · exact hfront g hg
    · rw [List.eq_of_mem_replicate hg]
      exact isGroup_zero
  · exact hback g hg

theorem length_short (hlength : front.length + back.length ≤ 7) :
    (front ++ List.replicate (8 - front.length - back.length) ['0'] ++ back).length = 8 := by
  rw [List.length_append, List.length_append, List.length_replicate]
  omega

end Short

/-! ## The address that is kept -/

section Kept

variable {cs : List Char} {v w : Nat} {gs hs : List (List Char)}

/-- Eight groups are an address written out as soon as they are in upper case. -/
theorem isWrittenOut_map (hgs : ∀ g ∈ gs, IsGroup g) (hlength : gs.length = 8) :
    IsWrittenOut (([':'].intercalate gs).map Char.toUpper)
      (gs.map (List.map Char.toUpper)) where
  text := map_intercalate (by decide) gs
  length := by rw [List.length_map, hlength]
  isGroup := isGroup_map_toUpper hgs
  upper := List.forall_mem_map.2 fun c _ => toUpper_toUpper c
  single := by
    rw [map_intercalate (by decide)]
    exact not_pair_infix_intercalate (isField_of_isGroup (isGroup_map_toUpper hgs))

/-- A text that stands for an address is written out as eight groups of that value. -/
theorem Denotes.writeOut_eq (h : Denotes cs v) :
    ∃ gs, writeOut cs = [':'].intercalate gs ∧ (∀ g ∈ gs, IsGroup g) ∧ gs.length = 8 ∧
      groupsValue gs = v := by
  cases h with
  | full hgs hlength =>
    have hsingle := not_pair_infix_intercalate (isField_of_isGroup hgs)
    exact ⟨_, writeOut_of_not_infix hsingle, hgs, hlength, rfl⟩
  | short hfront hback hlength =>
    exact ⟨_, writeOut_short (isField_of_isGroup hfront) (isField_of_isGroup hback) hlength,
      isGroup_short hfront hback _, length_short hlength, groupsValue_short hlength⟩

/-- **A text stands for one address.** -/
theorem Denotes.unique (hv : Denotes cs v) (hw : Denotes cs w) : v = w := by
  obtain ⟨gs, hgs, hgroups, -, rfl⟩ := hv.writeOut_eq
  obtain ⟨hs, hhs, hgroups', -, rfl⟩ := hw.writeOut_eq
  rw [← ipGroups_intercalate (isField_of_isGroup hgroups), ← hgs, hhs,
    ipGroups_intercalate (isField_of_isGroup hgroups')]

/-- An address has 128 bits. -/
theorem Denotes.lt (h : Denotes cs v) : v < 2 ^ 128 := by
  obtain ⟨gs, -, hgroups, hlength, rfl⟩ := h.writeOut_eq
  have hlt := groupsValue_lt hgroups
  rwa [hlength] at hlt

theorem Denotes.colon_mem (h : Denotes cs v) : ':' ∈ cs := by
  cases h with
  | full hgs hlength => exact sep_mem_intercalate (by omega)
  | short => simp

/-- **The normal form of an address is that address**, in eight groups, however its zeros were left
out; and a text without a colon is its own normal form. -/
theorem normalizeIp_keeps_address (s : String) :
    (∀ v, Denotes s.toList v → v < 2 ^ 128 ∧
      ∃ gs, IsWrittenOut (normalizeIp s).toList gs ∧ groupsValue gs = v) ∧
    (':' ∉ s.toList → normalizeIp s = s) := by
  refine ⟨fun v hv => ⟨hv.lt, ?_⟩, normalizeIp_of_notMem⟩
  obtain ⟨gs, htext, hgroups, hlength, rfl⟩ := hv.writeOut_eq
  refine ⟨gs.map (List.map Char.toUpper), ?_, groupsValue_map_toUpper hgroups⟩
  rw [toList_normalizeIp hv.colon_mem, htext]
  exact isWrittenOut_map hgroups hlength

/-- `fe80::1` is written out as the address that it stands for. -/
theorem normalizeIp_keeps_link_local :
    Denotes "fe80::1".toList (0xfe80 * 2 ^ 112 + 1) ∧
    ∃ gs, IsWrittenOut (normalizeIp "fe80::1").toList gs ∧
      groupsValue gs = 0xfe80 * 2 ^ 112 + 1 := by
  have hfront : ∀ g ∈ [['f', 'e', '8', '0']], IsGroup g :=
    List.forall_mem_singleton.2 ⟨List.cons_ne_nil _ _, by decide, List.all_eq_true.1 rfl⟩
  have hback : ∀ g ∈ [['1']], IsGroup g :=
    List.forall_mem_singleton.2 ⟨List.cons_ne_nil _ _, by decide, List.all_eq_true.1 rfl⟩
  have hdenotes : Denotes "fe80::1".toList (0xfe80 * 2 ^ 112 + 1) :=
    Denotes.short hfront hback (by decide)
  exact ⟨hdenotes, ((normalizeIp_keeps_address "fe80::1").1 _ hdenotes).2⟩

end Kept

end VmControl.Ipv6
