import VmControl.Capability

/-!
# What lists of capabilities come to

Every item of a list enters one capability in the mask of its mode, and nothing is ever taken out of
a mask.  So the masks tell all the modes that a capability was mentioned with, and not only the last
one: what was asked for once is still asked for after it was denied.  A capability is in one mask
only, and that of its last mention, exactly if it was never mentioned with both modes.

## Main definitions

* `CapabilityMask.mentions`: the capabilities that a list mentions, with their modes.
* `CapabilityMask.Takes`: lists that are taken, one after the other.
* `CapabilityMask.Tells`: which mentions a mask tells.

## Main statements

* `CapabilityMask.apply_eq_ok`: a list that is taken enters its mentions.
* `CapabilityMask.Tells.takes`: what any number of lists comes to.
* `CapabilityMask.last_mention_counts_iff`: when only the last mention of a capability counts.
-/

namespace VmControl

open Text

namespace CapabilityMask

variable {m m' : CapabilityMask} {i : Nat} {b : Bool}

/-! ## Mentions -/

/-- A capability with the mode that it is told to have. -/
structure Mention where
  /-- The bit of the capability. -/
  capability : Nat
  /-- Whether it is given. -/
  mode : Bool
  deriving DecidableEq

/-- What an item mentions: it has the form `NAME:on` or `NAME:off`, and there is a capability of
that name. -/
def mention? (item : List Char) : Option Mention :=
  (cutFirst ':' item).bind fun (name, mode) =>
    (Capability.index? (String.ofList name)).bind fun i =>
      (Toggle.readStrict (String.ofList mode)).map fun b => ⟨i, b⟩

/-- The items of a list. -/
def items (s : String) : List (List Char) := words (· == ',') s.toList

/-- The capabilities that a list mentions, in order. -/
def mentions (s : String) : List Mention := (items s).filterMap mention?

/-- The mode that the last mention of a capability tells. -/
def lastMode? (ms : List Mention) (i : Nat) : Option Bool :=
  ((ms.filter (·.capability = i)).getLast?).map (·.mode)

variable {ms : List Mention} {n : Mention}

theorem mentions_eq {s : String} (h : (items s).map mention? = ms.map some) : mentions s = ms :=
  calc mentions s
      = ((items s).map mention?).filterMap id := by rw [List.filterMap_map]; rfl
    _ = (ms.map some).filterMap id := by rw [h]
    _ = ms := by simp

theorem mem_of_lastMode? (h : lastMode? ms i = some b) : ⟨i, b⟩ ∈ ms := by
  obtain ⟨n, hn, rfl⟩ := Option.map_eq_some_iff.1 h
  obtain ⟨hmem, hi⟩ := List.mem_filter.1 (List.mem_of_getLast? hn)
  obtain rfl := of_decide_eq_true hi
  exact hmem

/-- A capability that was mentioned was mentioned last with some mode. -/
theorem exists_lastMode? (h : ⟨i, b⟩ ∈ ms) : ∃ b', lastMode? ms i = some b' := by
  have hmem : ⟨i, b⟩ ∈ ms.filter (·.capability = i) := List.mem_filter.2 ⟨h, by simp⟩
  have hlast := List.getLast?_eq_some_getLast (List.ne_nil_of_mem hmem)
  exact ⟨_, by rw [lastMode?, hlast, Option.map_some]⟩

/-- If a capability was mentioned with one mode only, that is its last mode. -/
theorem lastMode?_eq_some_iff (h : ¬ (⟨i, true⟩ ∈ ms ∧ ⟨i, false⟩ ∈ ms)) :
    lastMode? ms i = some b ↔ ⟨i, b⟩ ∈ ms := by
  refine ⟨mem_of_lastMode?, fun hmem => ?_⟩
  obtain ⟨b', hlast⟩ := exists_lastMode? hmem
  have hmem' := mem_of_lastMode? hlast
  cases b <;> cases b'
  · exact hlast
  · exact absurd ⟨hmem', hmem⟩ h
  · exact absurd ⟨hmem, hmem'⟩ h
  · exact hlast

/-! ## What one item does -/

/-- The mask of a mode. -/
def side (m : CapabilityMask) : Bool → Nat
  | true => m.on
  | false => m.off

/-- The mask with one more mention. -/
def note (m : CapabilityMask) (n : Mention) : CapabilityMask :=
  match n.mode with
  | true => { m with on := m.on ||| 1 <<< n.capability }
  | false => { m with off := m.off ||| 1 <<< n.capability }

/-- **An item that is taken enters its mention**, and one that mentions nothing is turned down. -/
theorem applyItem_eq_ok {whole : String} {item : List Char} :
    m.applyItem whole item = .ok m' ↔ ∃ n, mention? item = some n ∧ m' = m.note n := by
  unfold applyItem mention?
  cases cutFirst ':' item with
  | none => simp
  | some cut =>
    obtain ⟨name, mode⟩ := cut
    dsimp only [Option.bind_some]
    cases Capability.index? (String.ofList name) with
    | none => simp
    | some i =>
      dsimp only [Option.bind_some]
      rcases Toggle.readStrict (String.ofList mode) with _ | _ | _ <;> simp [note, eq_comm]

/-- **A list is taken if all its items mention something**, and then the mentions are entered in
order. -/
theorem apply_eq_ok {s : String} :
    m.apply s = (.ok (), m') ↔
      ∃ ns : List Mention, (items s).map mention? = ns.map some ∧ m' = ns.foldl note m := by
  have hitems (l : List (List Char)) (m : CapabilityMask) : applyItems s l m = (.ok (), m') ↔
      ∃ ns : List Mention, l.map mention? = ns.map some ∧ m' = ns.foldl note m := by
    induction l generalizing m with
    | nil =>
      constructor
      · intro h
        cases h
        exact ⟨[], rfl, rfl⟩
      · rintro ⟨ns, hns, rfl⟩
        obtain rfl := List.map_eq_nil_iff.1 hns.symm
        rfl
    | cons item l ih =>
      rw [applyItems]
      constructor
      · intro h
        split at h
        · next m₁ hitem =>
          obtain ⟨n, hn, rfl⟩ := applyItem_eq_ok.1 hitem
          obtain ⟨ns, hns, rfl⟩ := (ih _).1 h
          exact ⟨n :: ns, by rw [List.map_cons, List.map_cons, hn, hns], rfl⟩
        · cases h
      · rintro ⟨ns, hns, rfl⟩
        cases ns with
        | nil => cases hns
        | cons n ns =>
          obtain ⟨hn, hns⟩ := List.cons.inj hns
          rw [applyItem_eq_ok.2 ⟨n, hn, rfl⟩]
          exact (ih _).2 ⟨ns, hns, rfl⟩
  exact hitems (items s) m

/-- A mention sets its bit in the mask of its mode, and no other. -/
theorem testBit_side_note : ((m.note n).side b).testBit i = true ↔
    (m.side b).testBit i = true ∨ n = ⟨i, b⟩ := by
  obtain ⟨j, mode⟩ := n
  cases mode <;> cases b <;> simp [note, side, Nat.one_shiftLeft, Nat.testBit_two_pow]

/-! ## What lists tell -/

/-- Whether a mask tells just these mentions. -/
def Tells (m : CapabilityMask) (ms : List Mention) : Prop :=
  ∀ i b, (m.side b).testBit i = true ↔ ⟨i, b⟩ ∈ ms

theorem tells_empty : empty.Tells [] := by
  intro i b
  cases b <;> simp [empty, side]

/-- Lists that are taken one after the other, and the mask that they lead to. -/
inductive Takes : CapabilityMask → List String → CapabilityMask → Prop
  | nil (m : CapabilityMask) : Takes m [] m
  | cons {m m₁ m' : CapabilityMask} {s : String} {lists : List String}
    (h : m.apply s = (.ok (), m₁)) (hrest : Takes m₁ lists m') : Takes m (s :: lists) m'

namespace Tells

/-- One item more is one mention more. -/
theorem note (h : m.Tells ms) (n : Mention) : (m.note n).Tells (ms ++ [n]) := by
  intro i b
  rw [testBit_side_note, h i b, List.mem_append, List.mem_singleton, eq_comm (a := n)]

theorem foldl_note (h : m.Tells ms) (ns : List Mention) : (ns.foldl .note m).Tells (ms ++ ns) := by
  induction ns generalizing m ms with
  | nil => rwa [List.append_nil]
  | cons n ns ih =>
    have hrest := ih (h.note n)
    rwa [List.append_assoc, List.singleton_append] at hrest

/-- **Lists that are taken tell all that they mention.** -/
theorem takes {lists : List String} (h : m.Tells ms) (ht : Takes m lists m') :
    m'.Tells (ms ++ lists.flatMap mentions) := by
  induction ht generalizing ms with
  | nil m =>
    rwa [List.flatMap_nil, List.append_nil]
  | cons happly _ ih =>
    obtain ⟨ns, hns, rfl⟩ := apply_eq_ok.1 happly
    rw [List.flatMap_cons, ← List.append_assoc, mentions_eq hns]
    exact ih (h.foldl_note ns)

/-- A capability is told as its last mention says exactly if it has one mode only. -/
theorem last_iff (h : m.Tells ms) (i : Nat) :
    (∀ b, (m.side b).testBit i = true ↔ lastMode? ms i = some b) ↔
      ¬ (⟨i, true⟩ ∈ ms ∧ ⟨i, false⟩ ∈ ms) := by
  constructor
  · rintro hlast ⟨hon, hoff⟩
    have htrue := (hlast true).1 ((h i true).2 hon)
    have hfalse := (hlast false).1 ((h i false).2 hoff)
    rw [htrue] at hfalse
    cases hfalse
  · intro hone b
    rw [h i b, lastMode?_eq_some_iff hone]

/-- The masks overlap in the capabilities that have both modes. -/
theorem disjoint_iff (h : m.Tells ms) :
    m.on &&& m.off = 0 ↔ ∀ i, ¬ (⟨i, true⟩ ∈ ms ∧ ⟨i, false⟩ ∈ ms) := by
  have hbit (i : Nat) : (m.on &&& m.off).testBit i = true ↔ ⟨i, true⟩ ∈ ms ∧ ⟨i, false⟩ ∈ ms := by
    rw [Nat.testBit_and, Bool.and_eq_true, ← h i true, ← h i false]
    rfl
  constructor
  · intro hzero i hboth
    have hset := (hbit i).2 hboth
    rw [hzero, Nat.zero_testBit] at hset
    cases hset
  · intro hnone
    refine Nat.eq_of_testBit_eq fun i => ?_
    rw [Nat.zero_testBit, Bool.eq_false_iff]
    exact fun hset => hnone i ((hbit i).1 hset)

/-- Both masks together are the capabilities that were mentioned. -/
theorem union_iff (h : m.Tells ms) (i : Nat) :
    (m.on ||| m.off).testBit i = true ↔ ∃ b, ⟨i, b⟩ ∈ ms := by
  rw [Nat.testBit_or, Bool.or_eq_true, Bool.exists_bool, ← h i true, ← h i false, or_comm]
  rfl

end Tells

/-- **Only the last mention of a capability counts exactly if it was never mentioned with both
modes.**  Lists that are taken from the start set the bit of a capability in a mask if any mention
has that mode.  So the bits of a capability are those of its last mention if and only if all its
mentions agree, the masks are disjoint if and only if that is so for every capability, and together
they are the capabilities that were mentioned. -/
theorem last_mention_counts_iff {lists : List String} (h : Takes empty lists m) :
    let ms := lists.flatMap mentions
    (∀ i, (m.on.testBit i = true ↔ ⟨i, true⟩ ∈ ms) ∧ (m.off.testBit i = true ↔ ⟨i, false⟩ ∈ ms)) ∧
    (∀ i, (m.on.testBit i = true ↔ lastMode? ms i = some true) ∧
        (m.off.testBit i = true ↔ lastMode? ms i = some false) ↔
      ¬ (⟨i, true⟩ ∈ ms ∧ ⟨i, false⟩ ∈ ms)) ∧
    (m.on &&& m.off = 0 ↔ ∀ i, ¬ (⟨i, true⟩ ∈ ms ∧ ⟨i, false⟩ ∈ ms)) ∧
    ∀ i, (m.on ||| m.off).testBit i = true ↔ ∃ b, ⟨i, b⟩ ∈ ms := by
  have htells : m.Tells (lists.flatMap mentions) := tells_empty.takes h
  refine ⟨fun i => ⟨htells i true, htells i false⟩, fun i => ?_, htells.disjoint_iff,
    htells.union_iff⟩
  rw [← htells.last_iff i, Bool.forall_bool, and_comm]
  rfl

/-- `net_admin:on,Chown:off` followed by `CHOWN:off` gives one capability and denies another, each
as its last mention says. -/
theorem denied_again_is_denied :
    let lists := ["net_admin:on,Chown:off", "CHOWN:off"]
    let m : CapabilityMask := ⟨4096, 1⟩
    Takes empty lists m ∧
    (∀ i, (m.on.testBit i = true ↔ lastMode? (lists.flatMap mentions) i = some true) ∧
      (m.off.testBit i = true ↔ lastMode? (lists.flatMap mentions) i = some false)) ∧
    lastMode? (lists.flatMap mentions) 0 = some false := by
  have hfirst : (items "net_admin:on,Chown:off").map mention? =
      [⟨12, true⟩, ⟨0, false⟩].map some := by
    rw [show items _ = ["net_admin:on".toList, "Chown:off".toList] by simp [items, words]]
    decide +kernel
  have hsecond : (items "CHOWN:off").map mention? = [⟨0, false⟩].map some := by
    rw [show items _ = ["CHOWN:off".toList] by simp [items, words]]
    decide +kernel
  have htakes : Takes empty ["net_admin:on,Chown:off", "CHOWN:off"] ⟨4096, 1⟩ :=
    .cons (apply_eq_ok.2 ⟨_, hfirst, rfl⟩) (.cons (apply_eq_ok.2 ⟨_, hsecond, rfl⟩) (.nil _))
  have hmentions : ["net_admin:on,Chown:off", "CHOWN:off"].flatMap mentions =
      [⟨12, true⟩, ⟨0, false⟩, ⟨0, false⟩] := by
    rw [List.flatMap_cons, List.flatMap_singleton, mentions_eq hfirst, mentions_eq hsecond]
    rfl
  refine ⟨htakes, fun i => ((last_mention_counts_iff htakes).2.1 i).2 ?_, ?_⟩
  · rw [hmentions]
    simp +contextual
  · rw [hmentions]
    rfl

/-- `chown:on,chown:off` asks to give a capability and to deny it, although it was last mentioned
to be denied. -/
theorem given_and_denied :
    let m : CapabilityMask := ⟨1, 1⟩
    Takes empty ["chown:on,chown:off"] m ∧
    lastMode? (["chown:on,chown:off"].flatMap mentions) 0 = some false ∧
    m.on.testBit 0 = true ∧ m.off.testBit 0 = true ∧ m.on &&& m.off ≠ 0 := by
  have hitems : (items "chown:on,chown:off").map mention? = [⟨0, true⟩, ⟨0, false⟩].map some := by
    rw [show items _ = ["chown:on".toList, "chown:off".toList] by simp [items, words]]
    decide +kernel
  refine ⟨.cons (apply_eq_ok.2 ⟨_, hitems, rfl⟩) (.nil _), ?_, by decide⟩
  rw [List.flatMap_singleton, mentions_eq hitems]
  rfl

end CapabilityMask

end VmControl
