import VmControl.Proofs.Draft.Exclusion
import VmControl.Proofs.Draft.Serving
import VmControl.Proofs.Preferences
import VmControl.Proofs.Record.Paths

/-!
# Switches

A switch is off, on, or not mentioned, and the last mention of it counts.  Switches of the guest and
of its adapter are entered in different sheets, and the adapter is put into the device at the end of
the line, but what is told of one switch is never told by another option.

## Main definitions

* `OnOff`: the switches of a line about a guest, with their options and positions.

## Main statements

* `Draft.last_takeAll`: what one option decides is what the last mention of it says.
* `Draft.changesOnly_conclude`: what becomes of a draft at the end of the line.
* `OnOff.last_mention_counts`: the position of a switch after an accepted line.
-/

namespace VmControl

open Options
open Record (ChangesOnly Field)

/-! ## The last mention -/

namespace Draft

variable {host : Host} {s s' : Stage}

/-- **What one option decides is what the last mention of it says**, and without a mention it stays
as it was. -/
theorem last_takeAll {α : Type} {f : Stage → Option α} {id : OptionId}
    {v : Match OptionId → Option α}
    (hown : ∀ {m s s'}, take host s m = some s' → m.id = id →
      ∃ a, v m = some a ∧ f s' = some a)
    (hother : ∀ {m s s'}, take host s m = some s' → m.id ≠ id → f s' = f s)
    {ms : List (Match OptionId)} (h : takeAll host s (ms.map Match.occurrence) = some s') :
    (Preferences.last? ms id = none ∧ f s' = f s) ∨
      ∃ m a, Preferences.last? ms id = some m ∧ v m = some a ∧ f s' = some a := by
  induction ms using List.reverseRecOn generalizing s' with
  | nil =>
    cases h
    exact .inl ⟨rfl, rfl⟩
  | append_singleton ms m ih =>
    rw [List.map_append, takeAll_append] at h
    obtain ⟨s₁, hbefore, hlast⟩ := Option.bind_eq_some_iff.1 h
    have htake : take host s₁ m = some s' := by
      rw [← take_occurrence]
      simpa [takeAll] using hlast
    rw [Preferences.last?_concat]
    by_cases hm : m.id = id
    · obtain ⟨a, ha, hf⟩ := hown htake hm
      exact .inr ⟨m, a, if_pos hm, ha, hf⟩
    · rw [if_neg hm, hother htake hm]
      exact ih hbefore

end Draft

/-! ## The end of the line -/

/-- **What becomes of a draft at the end of the line**: settings move, and paths are made full. -/
theorem Draft.changesOnly_conclude {host : Host} {s : Stage} {r : Record} {q : Preferences}
    (h : conclude host s = some (r, q)) :
    ChangesOnly (movedFields ++
      [.setting (.text .location), .device (.setting (.text .image))]) s.1.whole r := by
  obtain ⟨r₀, hfinish, hconsistent⟩ := exists_of_conclude h
  exact ((changesOnly_finish hfinish).mono fun _ => List.mem_append_left _).trans
    ((Record.changesOnly_consistent hconsistent).mono fun _ => List.mem_append_right _)

/-! ## Switches -/

/-- What a line about a guest may turn on or off. -/
inductive OnOff where
  /-- A switch of the guest. -/
  | guest (k : Switch)
  /-- A switch of an adapter. -/
  | adapter (k : AdapterSwitch)
  deriving DecidableEq

namespace OnOff

/-- The option for a switch. -/
def id : OnOff → OptionId
  | .guest k => .setting (.switch k)
  | .adapter k => .adapter (.switch k)

/-- Where the record has a switch. -/
def field : OnOff → Field
  | .guest k => .setting (.switch k)
  | .adapter k => .device (.adapter (.setting (.switch k)))

/-- The position that a text says.  Some switches take `on` and `off` only. -/
def read? (k : OnOff) (text : String) : Option Bool :=
  match k with
  | .guest k => if k.isStrict then Toggle.readStrict text else Toggle.read text
  | .adapter _ => Toggle.read text

/-- The position of a switch, if it was mentioned. -/
def position? (k : OnOff) (r : Record) : Option Bool :=
  match k with
  | .guest k => r.settings.get? (.switch k)
  | .adapter k => r.device.adapter.settings.get? (.switch k)

theorem position?_congr {k : OnOff} {r r' : Record} {fields : List Field}
    (h : ChangesOnly fields r r') (hk : k.field ∉ fields) : k.position? r' = k.position? r := by
  cases k <;> exact h _ hk

/-- The one switch that the end of the line moves is that for the compaction of disks. -/
theorem field_not_mem_movedFields {k : OnOff} (hk : k ≠ .guest .autoCompact) :
    k.field ∉ Draft.movedFields ++
      [.setting (.text .location), .device (.setting (.text .image))] := by
  cases k with
  | guest k => cases k <;> first | exact absurd rfl hk | decide
  | adapter k => cases k <;> decide

variable {host : Host} {s s' : Draft.Stage} {m : Match OptionId} {k : OnOff}

/-- A switch takes the position that its option says. -/
theorem position?_of_take (h : Draft.take host s m = some s') (hid : m.id = k.id) :
    ∃ b, k.read? m.text = some b ∧ k.position? s'.1.whole = some b := by
  cases k with
  | guest k =>
    obtain ⟨b, hb, hget⟩ := Draft.setting_of_take h hid
    refine ⟨b, ?_, hget⟩
    unfold Setting.read Switch.read at hb
    dsimp only at hb
    split at hb
    · next hread => cases hb; exact hread
    · cases hb
  | adapter k =>
    obtain ⟨b, hb, hget⟩ := Draft.adapterSetting_of_take h hid
    refine ⟨b, ?_, hget⟩
    unfold AdapterSetting.read at hb
    dsimp only at hb
    split at hb
    · next hread => cases hb; exact hread
    · cases hb

/-- No other option touches it. -/
theorem position?_of_take_of_ne (h : Draft.take host s m = some s') (hid : m.id ≠ k.id) :
    k.position? s'.1.whole = k.position? s.1.whole := by
  cases k with
  | guest k =>
    exact Draft.view_take_of_ne (p := .setting (.switch k)) h fun hp =>
      hid (Draft.part?_eq_setting.1 hp)
  | adapter k =>
    exact Draft.view_take_of_ne (p := .adapter (.switch k)) h fun hp =>
      hid (Draft.part?_eq_adapter.1 hp)

/-- **The last mention of a switch counts.**  On an accepted line that changes a guest, a switch has
a position exactly if its option is on the line, under whatever name, and then it is the one that
the last of these options says.  No option but its own changes it.  The switch for the compaction of
disks is left out, since it goes to the device if that is a disk. -/
theorem last_mention_counts {table : CommandTable} {offset : Nat} {args : List String} {host : Host}
    {start : Preferences} {r : Record} {k : OnOff}
    (h : ((readGuestLine .set table offset args).perform host start).1 = .ok r)
    (hk : k ≠ .guest .autoCompact) :
    (k.position? r = none ↔ ∀ m ∈ (table.read args (offset + 1)).options, m.id ≠ k.id) ∧
    (∀ m, Preferences.last? (table.read args (offset + 1)).options k.id = some m →
      ∃ b, k.read? m.text = some b ∧ k.position? r = some b) ∧
    ∀ m : Match OptionId, m.id ≠ k.id → ∀ d : Draft,
      (Draft.grammar.step d (.option m)).Yields fun d' =>
        k.position? d'.whole = k.position? d.whole := by
  have houtcome := Reading.outcome_of_perform h
  rw [outcome_set_line (says_of_readGuestLine houtcome)] at houtcome
  obtain ⟨s, htake, hconclude⟩ := Option.bind_eq_some_iff.1 houtcome
  have hend : k.position? r = k.position? s.1.whole :=
    position?_congr (Draft.changesOnly_conclude hconclude) (field_not_mem_movedFields hk)
  have hlast := Draft.last_takeAll (f := fun s => k.position? s.1.whole)
    (v := fun m => k.read? m.text) position?_of_take position?_of_take_of_ne htake
  refine ⟨?_, ?_, fun m hm d host e d' hd => ?_⟩
  · rw [hend, ← Preferences.last?_eq_none_iff]
    obtain ⟨hnone, hposition⟩ | ⟨m, b, hm, -, hposition⟩ := hlast
    · have hstart : k.position? s.1.whole = none := by
        rw [hposition]
        cases k <;> rfl
      exact iff_of_true hstart hnone
    · rw [hposition, hm]
      simp
  · intro m hm
    rw [hend]
    obtain ⟨hnone, -⟩ | ⟨m', b, hm', hb, hposition⟩ := hlast
    · rw [hm] at hnone
      cases hnone
    · rw [hm] at hm'
      cases hm'
      exact ⟨b, hb, hposition⟩
  · have hstep := Reading.outcome_of_after hd
    rw [Draft.outcome_step] at hstep
    exact position?_of_take_of_ne hstep hm

end OnOff

/-- The line `prlctl set vm1 --ipfilter yes --offman on --offline_management off` turns offline
management off, by its second name. -/
theorem last_mention_of_offline_management : ∃ r,
    ((readGuestLine .set CommandTable.set 2 ["prlctl", "set", "vm1", "--ipfilter", "yes",
      "--offman", "on", "--offline_management", "off"]).perform
      ⟨fun _ => .error "", fun _ => .error ""⟩ .initial).1 = .ok r ∧
    (OnOff.guest .offlineManagement).position? r = some false := by
  have hstream : CommandTable.set.read ["prlctl", "set", "vm1", "--ipfilter", "yes",
      "--offman", "on", "--offline_management", "off"] 3 =
      ⟨[.option ⟨.adapter (.switch .ipFilter), "--ipfilter", some ⟨"yes", ⟨4, 0, 3⟩⟩⟩,
        .option ⟨.setting (.switch .offlineManagement), "--offman", some ⟨"on", ⟨6, 0, 2⟩⟩⟩,
        .option ⟨.setting (.switch .offlineManagement), "--offline_management",
          some ⟨"off", ⟨8, 0, 3⟩⟩⟩], none⟩ :=
    Table.read_eq_of_streamWithin (n := 4) (by rfl)
  have haccepted : ∃ r, ((readGuestLine .set CommandTable.set 2 ["prlctl", "set", "vm1",
      "--ipfilter", "yes", "--offman", "on", "--offline_management", "off"]).perform
      ⟨fun _ => .error "", fun _ => .error ""⟩ .initial).1 = .ok r := by
    unfold readGuestLine
    rw [hstream]
    exact ⟨_, rfl⟩
  obtain ⟨r, hr⟩ := haccepted
  obtain ⟨-, hlast, -⟩ :=
    OnOff.last_mention_counts (k := .guest .offlineManagement) hr (by decide)
  rw [hstream] at hlast
  obtain ⟨b, hb, hposition⟩ := hlast _ rfl
  cases hb
  exact ⟨r, hr, hposition⟩

end VmControl
