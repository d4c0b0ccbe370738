import VmControl.Proofs.Address.Ipv6
import VmControl.Proofs.Numeral

/-!
# Prefix lengths behind an address

An address may be followed by a slash and the length of its prefix, and is put into its normal form
together with them.  What follows an address belongs to its last group, which leaves the other
groups as they are.  An address whose zeros are its last groups has no last group: there, what
follows is taken for a group of its own, and takes the place of one of the zeros.

## Main definitions

* `Ipv6.EndsInZeros`: a text that ends with the two colons that its zeros are written out for.
* `IsAddress`: an address of either version.

## Main statements

* `Ipv6.writeOut_append_iff`, `normalizeIp_append_iff`: which texts have the normal form of their
  own in front of what follows them.
* `normalizeIp_prefix_iff`: which addresses have the normal form of their own in front of a prefix
  length.
-/

namespace VmControl

open Numeral Text

namespace Ipv6

/-! ## What follows the groups -/

/-- Whether a text ends with the two colons that its zeros are written out for. -/
def EndsInZeros (cs : List Char) : Prop :=
  ∃ head, cutPair ':' ':' cs = some (head, []) ∧ (ipGroups head).length ≤ 7

section Append

variable {cs head tail rest : List Char}

theorem hasDoubleColon_append (hrest : ':' ∉ rest) :
    hasDoubleColon (cs ++ rest) = hasDoubleColon cs := by
  rw [hasDoubleColon, cutPair_append hrest, Option.isSome_map]
  rfl

/-- What follows a text with groups belongs to the last one. -/
theorem ipGroups_append (hcs : cs ≠ []) (hrest : ':' ∉ rest) :
    ∃ gs last, ipGroups cs = gs ++ [last] ∧ ipGroups (cs ++ rest) = gs ++ [last ++ rest] := by
  obtain ⟨gs, last, hlast⟩ := (List.eq_nil_or_concat (fields ':' cs)).resolve_left
    (fields_ne_nil ':' cs)
  rw [List.concat_eq_append] at hlast
  refine ⟨gs, last, ?_, ?_⟩
  · rw [ipGroups, if_neg hcs, hlast]
  · rw [ipGroups, if_neg (List.append_ne_nil_of_left_ne_nil hcs rest), fields_append hrest hlast]

/-- What follows the two colons is a group. -/
theorem ipGroups_of_notMem (hne : rest ≠ []) (hrest : ':' ∉ rest) : ipGroups rest = [rest] := by
  rw [ipGroups, if_neg hne, fields_eq_iff]
  exact ⟨List.cons_ne_nil _ _, List.forall_mem_singleton.2 hrest, by simp⟩

theorem writeOut_append_of_tail (hcut : cutPair ':' ':' cs = some (head, tail)) (htail : tail ≠ [])
    (hrest : ':' ∉ rest) : writeOut (cs ++ rest) = writeOut cs ++ rest := by
  obtain ⟨gs, last, hgroups, hgroups'⟩ := ipGroups_append htail hrest
  simp only [writeOut, cutPair_append hrest, hcut, Option.map_some, hasDoubleColon_append hrest,
    hgroups, hgroups', List.length_append, List.length_singleton]
  split
  · rfl
  · rw [← List.append_assoc, ← List.append_assoc, intercalate_concat_append]

/-- With eight groups in front of the two colons, there are no zeros to write out. -/
theorem writeOut_of_length_le (hcut : cutPair ':' ':' cs = some (head, tail))
    (hmany : 8 ≤ (ipGroups head).length) : writeOut cs = cs := by
  simp only [writeOut, hcut]
  exact if_pos (by simp only [Bool.or_eq_true, decide_eq_true_eq]; omega)

/-- **What follows leaves the groups as they are**, if the text does not end in zeros. -/
theorem writeOut_append (hrest : ':' ∉ rest) (hzeros : ¬ EndsInZeros cs) :
    writeOut (cs ++ rest) = writeOut cs ++ rest := by
  cases hcut : cutPair ':' ':' cs with
  | none => simp only [writeOut, cutPair_append hrest, hcut, Option.map_none]
  | some p =>
    obtain ⟨head, tail⟩ := p
    by_cases htail : tail = []
    · subst htail
      have hmany : 8 ≤ (ipGroups head).length :=
        Nat.lt_of_not_le fun hfew => hzeros ⟨head, hcut, hfew⟩
      have hcut' : cutPair ':' ':' (cs ++ rest) = some (head, [] ++ rest) := by
        rw [cutPair_append hrest, hcut]
        rfl
      rw [writeOut_of_length_le hcut' hmany, writeOut_of_length_le hcut hmany]
    · exact writeOut_append_of_tail hcut htail hrest

/-! ### Zeros at the end -/

/-- The groups in front of zeros that end a text, up to the last of the eight. -/
def upToLast (head : List Char) : List Char :=
  [':'].intercalate
    (ipGroups head ++ List.replicate (7 - (ipGroups head).length) ['0'] ++ [[]])

theorem writeOut_zeros (hcut : cutPair ':' ':' cs = some (head, []))
    (hfew : (ipGroups head).length ≤ 7) : writeOut cs = upToLast head ++ ['0'] := by
  have hzeros : List.replicate (8 - (ipGroups head).length) ['0'] =
      List.replicate (7 - (ipGroups head).length) ['0'] ++ [[] ++ ['0']] := by
    rw [show 8 - (ipGroups head).length = 7 - (ipGroups head).length + 1 by omega,
      List.replicate_succ']
    rfl
  simp only [writeOut, hcut]
  rw [if_neg (by simpa [hasDoubleColon, cutPair, ipGroups] using Nat.lt_succ_of_le hfew)]
  rw [upToLast, ← intercalate_concat_append, List.append_assoc _ _ [[] ++ ['0']], ← hzeros]
  simp [ipGroups]

/-- **What follows the two colons takes the place of the last zero.** -/
theorem writeOut_zeros_append (hcut : cutPair ':' ':' cs = some (head, []))
    (hfew : (ipGroups head).length ≤ 6) (hne : rest ≠ []) (hrest : ':' ∉ rest) :
    writeOut (cs ++ rest) = upToLast head ++ rest := by
  have honce : hasDoubleColon rest = false := @hasDoubleColon_append [] rest hrest
  have hone : 8 - (ipGroups head).length - 1 = 7 - (ipGroups head).length := by omega
  simp only [writeOut, cutPair_append hrest, hcut, Option.map_some, List.nil_append,
    ipGroups_of_notMem hne hrest, honce, List.length_singleton, Bool.false_or]
  rw [if_neg (by simp only [decide_eq_true_eq]; omega), upToLast, ← intercalate_concat_append,
    hone]
  rfl

/-- If there is but one zero, it is not written out any more. -/
theorem writeOut_zero_append (hcut : cutPair ':' ':' cs = some (head, []))
    (hseven : (ipGroups head).length = 7) (hne : rest ≠ []) (hrest : ':' ∉ rest) :
    writeOut (cs ++ rest) = cs ++ rest := by
  simp only [writeOut, cutPair_append hrest, hcut, Option.map_some, List.nil_append,
    ipGroups_of_notMem hne hrest, hseven]
  exact if_pos (by simp)

/-- A text does not end in zeros once what follows is left behind it. -/
theorem not_endsInZeros_of_writeOut_append (hne : rest ≠ []) (hrest : ':' ∉ rest)
    (hsame : writeOut (cs ++ rest) = writeOut cs ++ rest) : ¬ EndsInZeros cs := by
  rintro ⟨head, hcut, hfew⟩
  rw [writeOut_zeros hcut hfew] at hsame
  rcases Nat.lt_or_eq_of_le hfew with hless | hseven
  · rw [writeOut_zeros_append hcut (Nat.le_of_lt_succ hless) hne hrest, List.append_assoc] at hsame
    have hlength := congrArg List.length (List.append_cancel_left hsame)
    simp at hlength
  · rw [writeOut_zero_append hcut hseven hne hrest] at hsame
    have hlast := congrArg List.getLast? (List.append_cancel_right hsame)
    rw [(cutPair_eq_some.1 hcut).1] at hlast
    simp at hlast

/-- **What follows leaves the groups as they are exactly if the text does not end in zeros.** -/
theorem writeOut_append_iff (hne : rest ≠ []) (hrest : ':' ∉ rest) :
    writeOut (cs ++ rest) = writeOut cs ++ rest ↔ ¬ EndsInZeros cs :=
  ⟨not_endsInZeros_of_writeOut_append hne hrest, writeOut_append hrest⟩

theorem endsInZeros_map : EndsInZeros (cs.map Char.toUpper) ↔ EndsInZeros cs := by
  unfold EndsInZeros
  rw [cutPair_map toUpper_eq_colon toUpper_eq_colon]
  constructor
  · rintro ⟨head', hcut, hfew⟩
    obtain ⟨⟨head, tail⟩, hcut, heq⟩ := Option.map_eq_some_iff.1 hcut
    simp only [Prod.mk.injEq, List.map_eq_nil_iff] at heq
    obtain ⟨rfl, rfl⟩ := heq
    rw [map_ipGroups, List.length_map] at hfew
    exact ⟨head, hcut, hfew⟩
  · rintro ⟨head, hcut, hfew⟩
    refine ⟨head.map Char.toUpper, by rw [hcut]; rfl, ?_⟩
    rwa [map_ipGroups, List.length_map]

theorem EndsInZeros.colon_mem (h : EndsInZeros cs) : ':' ∈ cs := by
  obtain ⟨head, hcut, -⟩ := h
  rw [(cutPair_eq_some.1 hcut).1]
  simp

end Append

end Ipv6

open Ipv6

/-- **A text has the normal form of its own in front of what follows it, exactly if it does not end
in zeros.** -/
theorem normalizeIp_append_iff {s t : String} (hne : t ≠ "") (hcolon : ':' ∉ t.toList)
    (hupper : t.toList.map Char.toUpper = t.toList) :
    normalizeIp (s ++ t) = normalizeIp s ++ t ↔ ¬ EndsInZeros s.toList := by
  by_cases hmem : ':' ∈ s.toList
  · have hboth : ':' ∈ (s ++ t).toList := by
      rw [String.toList_append]
      exact List.mem_append_left _ hmem
    rw [← String.toList_inj, String.toList_append, toList_normalizeIp hboth,
      toList_normalizeIp hmem, ← map_writeOut, ← map_writeOut, String.toList_append,
      List.map_append, hupper, writeOut_append_iff (by simpa using hne) hcolon, endsInZeros_map]
  · have hneither : ':' ∉ (s ++ t).toList := by
      rw [String.toList_append, List.mem_append]
      exact not_or.2 ⟨hmem, hcolon⟩
    rw [normalizeIp_of_notMem hmem, normalizeIp_of_notMem hneither]
    exact iff_of_true rfl fun h => hmem h.colon_mem

/-! ## Addresses -/

/-- Whether a text is a part of an address of version four: a numeral of at most eight bits. -/
def IsOctet (cs : List Char) : Prop := ∃ n < 256, IsDecimal cs n

/-- Whether a text is an address of version four: four numerals with dots between them. -/
structure IsDottedQuad (cs : List Char) (octets : List (List Char)) : Prop where
  text : cs = ['.'].intercalate octets
  length : octets.length = 4
  isOctet : ∀ o ∈ octets, IsOctet o

/-- Whether a text is an address of either version.  The last two groups of one with groups may be
written as an address of version four. -/
inductive IsAddress : List Char → Prop where
  | quad {cs : List Char} {octets : List (List Char)} (h : IsDottedQuad cs octets) : IsAddress cs
  | groups {cs : List Char} {v : Nat} (h : Denotes cs v) : IsAddress cs
  | mixedFull {gs octets : List (List Char)} {q : List Char} (hgs : ∀ g ∈ gs, IsGroup g)
    (hlength : gs.length = 6) (hq : IsDottedQuad q octets) :
    IsAddress ([':'].intercalate (gs ++ [q]))
  | mixedShort {front back octets : List (List Char)} {q : List Char}
    (hfront : ∀ g ∈ front, IsGroup g) (hback : ∀ g ∈ back, IsGroup g)
    (hlength : front.length + back.length ≤ 5) (hq : IsDottedQuad q octets) :
    IsAddress ([':'].intercalate front ++ ':' :: ':' :: [':'].intercalate (back ++ [q]))

section Addresses

variable {cs q : List Char} {gs front back octets : List (List Char)}

theorem IsDottedQuad.isField (h : IsDottedQuad q octets) : IsField ':' q where
  ne_nil := by
    rw [h.text]
    match octets, h.length with
    | o :: p :: os, _ => simp
  notMem hmem := by
    rw [h.text] at hmem
    rcases mem_of_mem_intercalate hmem with heq | ⟨o, ho, hin⟩
    · revert heq
      decide
    · obtain ⟨n, -, hn⟩ := h.isOctet o ho
      exact hn.notMem (by decide) hin

theorem isField_concat (hgs : ∀ g ∈ gs, IsGroup g) (hq : IsDottedQuad q octets) :
    ∀ f ∈ gs ++ [q], IsField ':' f :=
  List.forall_mem_append.2 ⟨isField_of_isGroup hgs, List.forall_mem_singleton.2 hq.isField⟩

/-- Groups with single colons between them do not end in zeros, nor in two colons. -/
theorem endsInZeros_iff_intercalate (hgs : ∀ g ∈ gs, IsField ':' g) :
    EndsInZeros ([':'].intercalate gs) ↔ [':', ':'] <:+ [':'].intercalate gs := by
  have hno := not_pair_infix_intercalate hgs
  refine iff_of_false ?_ fun h => hno h.isInfix
  rintro ⟨head, hcut, -⟩
  rw [cutPair_eq_none.2 hno] at hcut
  cases hcut

/-- Groups with zeros left out between them end in zeros exactly if no group is behind those. -/
theorem endsInZeros_iff_short (hfront : ∀ g ∈ front, IsField ':' g)
    (hback : ∀ g ∈ back, IsField ':' g) (hfew : front.length ≤ 7) :
    EndsInZeros ([':'].intercalate front ++ ':' :: ':' :: [':'].intercalate back) ↔
      [':', ':'] <:+ [':'].intercalate front ++ ':' :: ':' :: [':'].intercalate back := by
  have hcut := cutPair_intercalate hfront ([':'].intercalate back)
  constructor
  · rintro ⟨head, hzeros, -⟩
    exact ⟨head, (cutPair_eq_some.1 hzeros).1.symm⟩
  · intro hends
    by_cases hnil : [':'].intercalate back = []
    · rw [hnil] at hcut ⊢
      exact ⟨_, hcut, by rwa [ipGroups_intercalate hfront]⟩
    · have hcolon : [':'] <:+ [':'].intercalate back :=
        List.suffix_of_suffix_length_le ((List.suffix_cons ..).trans hends)
          (((List.suffix_cons ..).trans (List.suffix_cons ..)).trans (List.suffix_append ..))
          (List.length_pos_iff.2 hnil)
      exact absurd hcolon (not_suffix_intercalate hback)

theorem endsInZeros_iff_of_isAddress (h : IsAddress cs) :
    EndsInZeros cs ↔ [':', ':'] <:+ cs := by
  cases h with
  | quad hq => 
    refine iff_of_false (fun h => hq.isField.notMem h.colon_mem) fun h => ?_
    exact hq.isField.notMem (h.subset (by simp))
  | groups hdenotes =>
    cases hdenotes with
    | full hgs _ => exact endsInZeros_iff_intercalate (isField_of_isGroup hgs)
    | short hfront hback hlength =>
      exact endsInZeros_iff_short (isField_of_isGroup hfront) (isField_of_isGroup hback) (by omega)
  | mixedFull hgs _ hq => exact endsInZeros_iff_intercalate (isField_concat hgs hq)
  | mixedShort hfront hback hlength hq =>
    exact endsInZeros_iff_short (isField_of_isGroup hfront) (isField_concat hback hq) (by omega)

end Addresses

/-! ## Prefix lengths -/

/-- **A prefix length rides along with the address in front of it exactly if that does not end in
two colons.**  There the slash and the length are taken for one of the groups. -/
theorem normalizeIp_prefix_iff {a n : String} {k : Nat} (ha : IsAddress a.toList)
    (hn : IsDecimal n.toList k) :
    normalizeIp (a ++ "/" ++ n) = normalizeIp a ++ "/" ++ n ↔ ¬ [':', ':'] <:+ a.toList := by
  have htext : ("/" ++ n).toList = '/' :: n.toList := String.toList_append
  have hcolon : ':' ∉ ("/" ++ n).toList := by
    rw [htext, List.mem_cons, not_or]
    exact ⟨by decide, hn.notMem (by decide)⟩
  have hupper : ("/" ++ n).toList.map Char.toUpper = ("/" ++ n).toList := by
    rw [htext, List.map_cons, List.map_congr_left fun c hc => toUpper_of_isDigit (hn.isDigit c hc),
      List.map_id']
    rfl
  have hne : "/" ++ n ≠ "" := by
    rw [Ne, ← String.toList_inj, htext]
    exact List.cons_ne_nil _ _
  rw [String.append_assoc, String.append_assoc, normalizeIp_append_iff hne hcolon hupper,
    endsInZeros_iff_of_isAddress ha]

/-- `2001:db8::1/48` is the normal form of the address and the length. -/
theorem length_follows_host :
    IsAddress "2001:db8::1".toList ∧ IsDecimal "48".toList 48 ∧
    normalizeIp ("2001:db8::1" ++ "/" ++ "48") = normalizeIp "2001:db8::1" ++ "/" ++ "48" := by
  have hfront : ∀ g ∈ [['2', '0', '0', '1'], ['d', 'b', '8']], IsGroup g :=
    List.forall_mem_cons.2 ⟨⟨List.cons_ne_nil _ _, by decide, List.all_eq_true.1 rfl⟩,
      List.forall_mem_singleton.2 ⟨List.cons_ne_nil _ _, by decide, List.all_eq_true.1 rfl⟩⟩
  have hback : ∀ g ∈ [['1']], IsGroup g :=
    List.forall_mem_singleton.2 ⟨List.cons_ne_nil _ _, by decide, List.all_eq_true.1 rfl⟩
  have haddress : IsAddress "2001:db8::1".toList := .groups (.short hfront hback (by decide))
  have hdecimal : IsDecimal "48".toList 48 := isDecimal_toString 48
  exact ⟨haddress, hdecimal, (normalizeIp_prefix_iff haddress hdecimal).2 (by decide)⟩

/-- The length in `fe80::/64` takes the place of the last zero. -/
theorem length_taken_for_zero :
    IsAddress "fe80::".toList ∧ IsDecimal "64".toList 64 ∧
    normalizeIp ("fe80::" ++ "/" ++ "64") = "FE80:0:0:0:0:0:0:/64" ∧
    normalizeIp "fe80::" ++ "/" ++ "64" = "FE80:0:0:0:0:0:0:0/64" := by
  have hfront : ∀ g ∈ [['f', 'e', '8', '0']], IsGroup g :=
    List.forall_mem_singleton.2 ⟨List.cons_ne_nil _ _, by decide, List.all_eq_true.1 rfl⟩
  have haddress : IsAddress "fe80::".toList :=
    .groups (.short hfront (List.forall_mem_nil _) (by decide))
  exact ⟨haddress, isDecimal_toString 64, by decide +kernel, by decide +kernel⟩

end VmControl
