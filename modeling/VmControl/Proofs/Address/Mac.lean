import VmControl.Value.Address

/-!
# Hardware addresses as they are written

A hardware address is six octets of two hexadecimal digits each, and one colon or nothing stands
between each two neighbours.  Its digits are what is read.  The reader takes one more colon behind
the last octet, and nothing else that is not an address.

## Main definitions

* `Joins`: octets with one colon or nothing between each two neighbours.
* `IsMac`: a text is a hardware address of some digits, or leaves the choice of one open.

## Main statements

* `hexPairs_eq_some`: which texts of pairs have digits.
* `readMac_eq_some`: which texts are read.
* `readMac_iff_no_colon_behind`: what is read is an address, unless a colon is behind it.
-/

namespace VmControl

/-- Whether a text is an octet: two hexadecimal digits. -/
structure IsHexOctet (o : List Char) : Prop where
  length : o.length = 2
  hex : ∀ c ∈ o, isHexDigit c = true

/-- Whether a text may stand between two octets: one colon or nothing. -/
def MaySeparate (sep : List Char) : Prop := sep = [] ∨ sep = [':']

/-- Octets with one colon or nothing between each two neighbours. -/
inductive Joins : List (List Char) → List Char → Prop where
  | last {o : List Char} (ho : IsHexOctet o) : Joins [o] o
  | next {o sep cs : List Char} {os : List (List Char)} (ho : IsHexOctet o)
    (hsep : MaySeparate sep) (h : Joins os cs) : Joins (o :: os) (o ++ (sep ++ cs))

/-- Whether a text is a hardware address of the digits `out`, or leaves the choice of one open. -/
inductive IsMac : String → String → Prop where
  | auto : IsMac "auto" "auto"
  | octets {s out : String} {os : List (List Char)} (h : Joins os s.toList)
    (hlength : os.length = 6) (hout : out.toList = os.flatten) : IsMac s out

/-! ## Pairs of digits -/

/-- Octets with one colon or nothing behind each. -/
inductive Follows : List (List Char) → List Char → Prop where
  | nil : Follows [] []
  | next {o sep cs : List Char} {os : List (List Char)} (ho : IsHexOctet o)
    (hsep : MaySeparate sep) (h : Follows os cs) : Follows (o :: os) (o ++ (sep ++ cs))

section Octets

variable {a b : Char} {o sep cs ds : List Char} {os : List (List Char)}

theorem maySeparate_nil : MaySeparate [] := .inl rfl

theorem isHexOctet_pair : IsHexOctet [a, b] ↔ (isHexDigit a && isHexDigit b) = true := by
  rw [Bool.and_eq_true]
  constructor
  · intro h
    exact ⟨h.hex a (by simp), h.hex b (by simp)⟩
  · intro h
    exact ⟨rfl, List.forall_mem_cons.2 ⟨h.1, List.forall_mem_singleton.2 h.2⟩⟩

theorem IsHexOctet.exists_pair (h : IsHexOctet o) :
    ∃ a b, o = [a, b] ∧ (isHexDigit a && isHexDigit b) = true := by
  match o, h.length with
  | [a, b], _ => exact ⟨a, b, rfl, isHexOctet_pair.1 h⟩

theorem IsHexOctet.colon_notMem (h : IsHexOctet o) : ':' ∉ o := by
  intro hmem
  exact absurd (h.hex ':' hmem) (by decide)

/-- A text of octets does not start with a colon. -/
theorem Follows.head?_ne (h : Follows os cs) : cs.head? ≠ some ':' := by
  cases h with
  | nil => simp
  | next ho hsep h =>
    obtain ⟨a, b, rfl, -⟩ := ho.exists_pair
    intro hcolon
    cases hcolon
    exact ho.colon_notMem (List.mem_cons_self ..)

theorem hexPairs_colon (ho : IsHexOctet o) (cs : List Char) :
    hexPairs (o ++ ':' :: cs) = (hexPairs cs).map fun ds => o ++ ds := by
  obtain ⟨a, b, rfl, hab⟩ := ho.exists_pair
  exact if_pos hab

theorem hexPairs_bare (ho : IsHexOctet o) (hcs : cs.head? ≠ some ':') :
    hexPairs (o ++ cs) = (hexPairs cs).map fun ds => o ++ ds := by
  obtain ⟨a, b, rfl, hab⟩ := ho.exists_pair
  show hexPairs (a :: b :: cs) = _
  rw [hexPairs, if_pos hab]
  · rfl
  · rintro rest rfl
    exact hcs rfl

/-- Octets are read as their digits. -/
theorem Follows.hexPairs_eq (h : Follows os cs) : hexPairs cs = some os.flatten := by
  induction h with
  | nil => rfl
  | next ho hsep h ih =>
    rcases hsep with rfl | rfl
    · rw [List.nil_append, hexPairs_bare ho h.head?_ne, ih]
      rfl
    · rw [List.singleton_append, hexPairs_colon ho, ih]
      rfl

/-- **Digits are read from octets only.** -/
theorem hexPairs_eq_some : hexPairs cs = some ds ↔ ∃ os, Follows os cs ∧ ds = os.flatten := by
  constructor
  · intro h
    induction cs using hexPairs.induct generalizing ds with
    | case1 =>
      cases h
      exact ⟨[], .nil, rfl⟩
    | case2 a b rest hab ih =>
      rw [hexPairs, if_pos hab] at h
      obtain ⟨es, hes, rfl⟩ := Option.map_eq_some_iff.1 h
      obtain ⟨os, hos, rfl⟩ := ih hes
      exact ⟨[a, b] :: os, .next (isHexOctet_pair.2 hab) (.inr rfl) hos, rfl⟩
    | case3 a b rest hab =>
      rw [hexPairs, if_neg hab] at h
      cases h
    | case4 a b rest hrest hab ih =>
      rw [hexPairs, if_pos hab] at h
      · obtain ⟨es, hes, rfl⟩ := Option.map_eq_some_iff.1 h
        obtain ⟨os, hos, rfl⟩ := ih hes
        exact ⟨[a, b] :: os, .next (isHexOctet_pair.2 hab) maySeparate_nil hos, rfl⟩
      · exact hrest
    | case5 a b rest hrest hab =>
      rw [hexPairs, if_neg hab] at h
      · cases h
      · exact hrest
    | case6 a => cases h
  · rintro ⟨os, hos, rfl⟩
    exact hos.hexPairs_eq

/-! ## What stands behind octets -/

theorem Joins.follows (h : Joins os cs) (hsep : MaySeparate sep) : Follows os (cs ++ sep) := by
  induction h with
  | last ho =>
    have hone := Follows.next ho hsep .nil
    rwa [List.append_nil] at hone
  | next ho hsep' h ih =>
    rw [List.append_assoc, List.append_assoc]
    exact .next ho hsep' ih

theorem Joins.follows_self (h : Joins os cs) : Follows os cs := by
  simpa using h.follows maySeparate_nil

/-- **Behind joined octets is one colon or nothing.** -/
theorem Follows.exists_joins (h : Follows os cs) (hos : os ≠ []) :
    ∃ body sep, Joins os body ∧ MaySeparate sep ∧ cs = body ++ sep := by
  induction h with
  | nil => exact absurd rfl hos
  | @next o sep cs os ho hsep h ih =>
    by_cases hlast : os = []
    · subst hlast
      cases h
      exact ⟨o, sep, .last ho, hsep, by rw [List.append_nil]⟩
    · obtain ⟨body, sep', hbody, hsep', rfl⟩ := ih hlast
      exact ⟨_, sep', .next ho hsep hbody, hsep', by simp only [List.append_assoc]⟩

/-- Joined octets end in a digit. -/
theorem Joins.not_colon_suffix (h : Joins os cs) : ¬ [':'] <:+ cs := by
  have hlast : ∃ c, cs.getLast? = some c ∧ c ≠ ':' := by
    induction h with
    | last ho =>
      obtain ⟨a, b, rfl, -⟩ := ho.exists_pair
      exact ⟨b, rfl, fun hb => ho.colon_notMem (hb ▸ by simp)⟩
    | next ho hsep h ih =>
      obtain ⟨c, hc, hne⟩ := ih
      exact ⟨c, by rw [List.getLast?_append, List.getLast?_append, hc]; rfl, hne⟩
  rintro ⟨front, rfl⟩
  obtain ⟨c, hc, hne⟩ := hlast
  rw [List.getLast?_concat] at hc
  cases hc
  exact hne rfl

/-- Every octet has two digits. -/
theorem Follows.length_flatten (h : Follows os cs) : os.flatten.length = 2 * os.length := by
  induction h with
  | nil => rfl
  | next ho hsep h ih =>
    rw [List.flatten_cons, List.length_append, ho.length, ih, List.length_cons]
    omega

/-- The digits of octets are octets with nothing between them. -/
theorem Follows.flatten (h : Follows os cs) : Follows os os.flatten := by
  induction h with
  | nil => exact .nil
  | next ho hsep h ih => exact .next ho maySeparate_nil ih

end Octets

/-! ## Addresses -/

section Addresses

variable {s t out : String} {os : List (List Char)}

theorem ne_auto_of_follows (h : Follows os s.toList) : s ≠ "auto" := by
  rintro rfl
  have hnone : hexPairs "auto".toList = none := by decide
  rw [h.hexPairs_eq] at hnone
  cases hnone

theorem readMac_of_follows (h : Follows os s.toList) (hlength : os.length = 6)
    (hout : out.toList = os.flatten) : readMac s = some out := by
  have hdigits : os.flatten.length = 12 := by rw [h.length_flatten, hlength]
  rw [readMac, if_neg (ne_auto_of_follows h), h.hexPairs_eq, Option.bind_some, if_pos hdigits,
    ← hout, String.ofList_toList]

/-- **What is read are six octets, or the open choice.** -/
theorem readMac_eq_some : readMac s = some out ↔
    s = "auto" ∧ out = "auto" ∨
      ∃ os, Follows os s.toList ∧ os.length = 6 ∧ out.toList = os.flatten := by
  constructor
  · intro h
    unfold readMac at h
    split at h
    · next hauto =>
      cases h
      exact .inl ⟨hauto, rfl⟩
    · obtain ⟨ds, hds, hlength⟩ := Option.bind_eq_some_iff.1 h
      obtain ⟨os, hos, rfl⟩ := hexPairs_eq_some.1 hds
      rw [Option.ite_none_right_eq_some, hos.length_flatten] at hlength
      obtain ⟨hlength, hout⟩ := hlength
      cases hout
      exact .inr ⟨os, hos, by omega, String.toList_ofList⟩
  · rintro (⟨rfl, rfl⟩ | ⟨os, hos, hlength, hout⟩)
    · rfl
    · exact readMac_of_follows hos hlength hout

/-- What is read is read as itself. -/
theorem readMac_readMac (h : readMac s = some out) : readMac out = some out := by
  rcases readMac_eq_some.1 h with ⟨-, rfl⟩ | ⟨os, hos, hlength, hout⟩
  · rfl
  · exact readMac_of_follows (hout ▸ hos.flatten) hlength hout

theorem IsMac.readMac_eq (h : IsMac s out) : readMac s = some out := by
  cases h with
  | auto => rfl
  | octets h hlength hout => exact readMac_of_follows h.follows_self hlength hout

theorem IsMac.not_colon_suffix (h : IsMac s out) : ¬ [':'] <:+ s.toList := by
  cases h with
  | auto => decide
  | octets h hlength hout => exact h.not_colon_suffix

theorem readMac_colon (hne : t ≠ "auto") (h : IsMac t out) : readMac (t ++ ":") = some out := by
  cases h with
  | auto => exact absurd rfl hne
  | octets h hlength hout =>
    have hcolon : (t ++ ":").toList = t.toList ++ [':'] := String.toList_append
    exact readMac_of_follows (hcolon ▸ h.follows (.inr rfl)) hlength hout

/-- **What is read is an address, or has one colon behind the octets of one.** -/
theorem isMac_or_colon_of_readMac (h : readMac s = some out) :
    IsMac s out ∨ ∃ t, s = t ++ ":" ∧ t ≠ "auto" ∧ IsMac t out := by
  rcases readMac_eq_some.1 h with ⟨rfl, rfl⟩ | ⟨os, hos, hlength, hout⟩
  · exact .inl .auto
  · have hne : os ≠ [] := by
      rintro rfl
      cases hlength
    obtain ⟨body, sep, hbody, rfl | rfl, htext⟩ := hos.exists_joins hne
    · rw [List.append_nil] at htext
      exact .inl (.octets (htext ▸ hbody) hlength hout)
    · have hs : s = String.ofList body ++ ":" := by
        rw [← String.toList_inj, htext, String.toList_append, String.toList_ofList]
        rfl
      have ht : Joins os (String.ofList body).toList := by rwa [String.toList_ofList]
      exact .inr ⟨_, hs, ne_auto_of_follows ht.follows_self, .octets ht hlength hout⟩

end Addresses

/-- **Hardware addresses are read, and so is one colon behind their octets.**  A text that does not
end in a colon is read exactly if it is an address, as its digits, or leaves the choice of one open.
What is read is read as itself. -/
theorem readMac_iff_no_colon_behind (s out : String) :
    (IsMac s out ↔ readMac s = some out ∧ ¬ [':'] <:+ s.toList) ∧
    (readMac s = some out ↔ IsMac s out ∨ ∃ t, s = t ++ ":" ∧ t ≠ "auto" ∧ IsMac t out) ∧
    (readMac s = some out → readMac out = some out) := by
  refine ⟨⟨fun h => ⟨h.readMac_eq, h.not_colon_suffix⟩, ?_⟩, ⟨isMac_or_colon_of_readMac, ?_⟩,
    readMac_readMac⟩
  · rintro ⟨hread, hcolon⟩
    rcases isMac_or_colon_of_readMac hread with h | ⟨t, rfl, -⟩
    · exact h
    · have hend : (t ++ ":").toList = t.toList ++ [':'] := String.toList_append
      exact absurd ⟨t.toList, hend.symm⟩ hcolon
  · rintro (h | ⟨t, rfl, hne, h⟩)
    · exact h.readMac_eq
    · exact readMac_colon hne h

/-- Octets with colons between some of them. -/
theorem mac_of_mixed_octets :
    IsMac "00:18F3:f00D:A0" "0018F3f00DA0" ∧
    readMac "00:18F3:f00D:A0" = some "0018F3f00DA0" ∧
    readMac "0018F3f00DA0" = some "0018F3f00DA0" := by
  have hcolon : MaySeparate [':'] := .inr rfl
  have hback : Joins [['f', '0'], ['0', 'D'], ['A', '0']] "f00D:A0".toList :=
    .next (isHexOctet_pair.2 rfl) maySeparate_nil
      (.next (isHexOctet_pair.2 rfl) hcolon (.last (isHexOctet_pair.2 rfl)))
  have hoctets : Joins [['0', '0'], ['1', '8'], ['F', '3'], ['f', '0'], ['0', 'D'], ['A', '0']]
      "00:18F3:f00D:A0".toList :=
    .next (isHexOctet_pair.2 rfl) hcolon
      (.next (isHexOctet_pair.2 rfl) maySeparate_nil
        (.next (isHexOctet_pair.2 rfl) hcolon hback))
  have hmac : IsMac "00:18F3:f00D:A0" "0018F3f00DA0" := .octets hoctets rfl (by decide)
  obtain ⟨hiff, -, hself⟩ := readMac_iff_no_colon_behind "00:18F3:f00D:A0" "0018F3f00DA0"
  exact ⟨hmac, (hiff.1 hmac).1, hself (hiff.1 hmac).1⟩

/-- A colon behind the last octet is read, though nothing follows that it separates. -/
theorem mac_with_colon_behind :
    ¬ IsMac "00:18:F3:F0:0D:A0:" "0018F3F00DA0" ∧
    readMac "00:18:F3:F0:0D:A0:" = some "0018F3F00DA0" := by
  refine ⟨fun h => h.not_colon_suffix (by decide), by decide⟩

end VmControl
