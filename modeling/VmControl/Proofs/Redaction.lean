import VmControl.Proofs.Line.Visit
import VmControl.Proofs.Options.Position
import VmControl.Redaction

/-!
# What is wiped of a line

Whatever becomes of a line, the bytes that are overwritten are those of the credentials that were
come to: the values of options that take one, and the passwords of the well-formed logins in front
of names.

## Main statements

* `ArgumentBytes.byte?_wipeAll`: wiping slots overwrites the bytes in them.
* `ArgumentBytes.eq_zero_of_byte?_wipeAll`: wiping a whole argument leaves nothing of it.
* `Program.wipes_exactly_credentials`: a program overwrites the credentials, and nothing else.
-/

namespace VmControl

open Options

/-- Whether a byte lies in a slot. -/
def Options.Slot.Covers (s : Slot) (i j : Nat) : Prop := s.index = i ∧ s.start ≤ j ∧ j < s.stop

instance (s : Slot) (i j : Nat) : Decidable (s.Covers i j) :=
  inferInstanceAs (Decidable (_ ∧ _))

namespace ArgumentBytes

/-- **Wiping slots sets the bytes in them to zero and leaves all others alone.** -/
theorem byte?_wipeAll (b : ArgumentBytes) (slots : List Slot) (i j : Nat) :
    (b.wipeAll slots).byte? i j =
      (b.byte? i j).map fun v => if ∃ s ∈ slots, s.Covers i j then 0 else v := by
  induction slots generalizing b with
  | nil => simp [wipeAll]
  | cons s slots ih =>
    show ((b.wipe s).wipeAll slots).byte? i j = _
    rw [ih, byte?_wipe, Option.map_map]
    congr 1
    funext v
    by_cases hs : s.Covers i j
    · simp [hs, show s.index = i ∧ s.start ≤ j ∧ j < s.stop from hs]
    · simp [hs, show ¬ (s.index = i ∧ s.start ≤ j ∧ j < s.stop) from hs]

/-- Wiping slots keeps the length of every argument. -/
theorem length_wipeAll (b : ArgumentBytes) (slots : List Slot) :
    (b.wipeAll slots).toList.map List.length = b.toList.map List.length := by
  induction slots generalizing b with
  | nil => rfl
  | cons s slots ih =>
    show ((b.wipe s).wipeAll slots).toList.map List.length = _
    rw [ih]
    refine List.ext_getElem? fun i => ?_
    simp only [wipe, List.getElem?_map, List.getElem?_modify]
    cases b.toList[i]? with
    | none => rfl
    | some bytes => by_cases hs : s.index = i <;> simp [hs, wipeArgument]

theorem toList_loop (bytes : ByteArray) (i : Nat) (before : List UInt8) :
    ByteArray.toList.loop bytes i before = before.reverse ++ bytes.data.toList.drop i := by
  induction i, before using ByteArray.toList.loop.induct bytes with
  | case1 i before hlt ih =>
    have hlt' : i < bytes.data.toList.length := hlt
    have hget : bytes.get! i = bytes.data.toList[i] := by
      show bytes.data[i]! = _
      rw [getElem!_pos bytes.data i hlt, Array.getElem_toList]
    rw [ByteArray.toList.loop, if_pos hlt, ih, hget, List.reverse_cons, List.append_assoc,
      List.singleton_append, ← List.drop_eq_getElem_cons hlt']
  | case2 i before hge =>
    have hge' : bytes.data.toList.length ≤ i := Nat.not_lt.1 hge
    rw [ByteArray.toList.loop, if_neg hge, List.drop_eq_nil_of_le hge', List.append_nil]

theorem toList_eq (bytes : ByteArray) : bytes.toList = bytes.data.toList := by
  rw [ByteArray.toList, toList_loop]
  rfl

theorem length_toList_toUTF8 (s : String) : s.toUTF8.toList.length = s.utf8ByteSize := by
  rw [toList_eq]
  rfl

/-- **The bytes of an argument are those below its length.** -/
theorem exists_byte?_ofArgs {args : List String} {arg : String} {i j : Nat}
    (harg : args[i]? = some arg) :
    (∃ v, (ofArgs args).byte? i j = some v) ↔ j < Text.byteLength arg.toList := by
  have hsize : arg.toUTF8.toList.length = Text.byteLength arg.toList := by
    rw [Text.byteLength_toList, length_toList_toUTF8]
  simp only [byte?, ofArgs, List.getElem?_map, harg, Option.map_some, Option.bind_some]
  rw [← hsize]
  constructor
  · rintro ⟨v, hv⟩
    exact (List.getElem?_eq_some_iff.1 hv).1
  · intro h
    exact ⟨_, List.getElem?_eq_getElem h⟩

/-- An argument has bytes below its length only. -/
theorem lt_of_byte?_ofArgs {args : List String} {arg : String} {i j : Nat} {v : UInt8}
    (harg : args[i]? = some arg) (h : (ofArgs args).byte? i j = some v) :
    j < Text.byteLength arg.toList :=
  (exists_byte?_ofArgs harg).1 ⟨v, h⟩

/-- **Wiping an argument from its first byte to its last leaves nothing but zeros.** -/
theorem eq_zero_of_byte?_wipeAll {args : List String} {arg : String} {slots : List Slot} {i j : Nat}
    {v : UInt8} (harg : args[i]? = some arg)
    (hslot : ⟨i, 0, Text.byteLength arg.toList⟩ ∈ slots)
    (h : ((ofArgs args).wipeAll slots).byte? i j = some v) : v = 0 := by
  rw [byte?_wipeAll] at h
  obtain ⟨v₀, hv₀, hv⟩ := Option.map_eq_some_iff.1 h
  have hcovers : ∃ s ∈ slots, s.Covers i j :=
    ⟨_, hslot, rfl, Nat.zero_le j, lt_of_byte?_ofArgs harg hv₀⟩
  rw [← hv, if_pos hcovers]

end ArgumentBytes

/-- **A program overwrites the credentials that it comes to, and nothing else**, whether or not it
accepts the line.  It comes to the options and logins of the line from the first one on, the last
one being perhaps what it turns the line down for, and to all of them if it accepts the line. -/
theorem Program.wipes_exactly_credentials (p : Program) (args : List String) (host : Host)
    (start : Preferences) :
    let out := (p.read args).perform host start
    let before := ArgumentBytes.ofArgs args
    let after := before.wipeAll out.2.wiped
    (∀ i j, after.byte? i j = (before.byte? i j).map fun v =>
      if ∃ s ∈ credentialSlots out.2.options out.2.logins, s.Covers i j then 0 else v) ∧
    after.toList.map List.length = before.toList.map List.length ∧
    out.2.options <+: p.options args ∧ out.2.logins <+: p.logins args ∧
    (∀ l ∈ out.2.logins, (LoginText.read l.text).isSome) ∧
    ((∃ r, out.1 = .ok r) → out.2.options = p.options args ∧ out.2.logins = p.logins args) := by
  intro out before after
  obtain ⟨ms, ls, hms, hls, hvisit, hall⟩ := p.visits_read args host (.start start)
  have hoptions : out.2.options = ms := hvisit.options
  have hlogins : out.2.logins = ls := hvisit.logins
  refine ⟨fun i j => ?_, ArgumentBytes.length_wipeAll .., hoptions ▸ hms, hlogins ▸ hls,
    hlogins ▸ hvisit.wellFormed, fun ⟨r, hr⟩ => ?_⟩
  · have hwiped (s : Slot) : s ∈ out.2.wiped ↔ s ∈ credentialSlots ms ls :=
      (hvisit.wiped s).trans (or_iff_right List.not_mem_nil)
    rw [ArgumentBytes.byte?_wipeAll, hoptions, hlogins]
    simp only [hwiped]
  · rw [hoptions, hlogins]
    exact hall r hr

end VmControl
