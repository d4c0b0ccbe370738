import VmControl.Proofs.Draft.Exclusion

/-!
# Which settings have a device

Settings of an adapter and properties of a device say nothing without a device.  A line that changes
a guest may leave the device out: a size is then for the first disk and a change of an adapter for
the first adapter, and all other properties are to be turned down.  What the device of an accepted
line is follows from its selectors and these two fallbacks.  Some properties are not told from none,
however, so that they can stand on a line that has no device.

## Main definitions

* `OptionId.givesDevice`: the options that no line is accepted with unless it has a device or
  attaches a backup.

## Main statements

* `Draft.said_foldl_enterSelection`: of what selectors say, the last counts.
* `Program.adapter_change_has_device`: the device that changes of an adapter come to.
* `Program.device_given_iff`: which lines have a device or attach a backup.
-/

namespace VmControl

open Options

/-- The class of the device, if the option is a selector that says it. -/
def Options.Match.kind? (m : Match OptionId) : Option DeviceKind :=
  m.selection?.bind fun x => x.1.kind? x.2

/-- Whether an option gives the line a device, or attaches a backup, or is not accepted without. -/
def OptionId.givesDevice : OptionId → Bool
  | .selector _ => true
  | .backupAdd => true
  | .device s => DeviceSetting.changes.contains s
  | id => id.changesAdapter

theorem OptionId.givesDevice_of_changesAdapter {id : OptionId} (h : id.changesAdapter = true) :
    id.givesDevice = true := by
  cases id <;> first | rfl | exact h | cases h

theorem Options.Match.id_of_selection? {m : Match OptionId} {x : Selector × String}
    (hx : m.selection? = some x) : m.id = .selector x.1 := by
  obtain ⟨s, hs, rfl⟩ := Option.map_eq_some_iff.1 hx
  cases hid : m.id <;> rw [hid] at hs <;> cases hs
  rfl

theorem Options.Match.exists_selection?_iff {m : Match OptionId} :
    (∃ x, m.selection? = some x) ↔ ∃ s, m.id = .selector s := by
  constructor
  · rintro ⟨x, hx⟩
    exact ⟨x.1, id_of_selection? hx⟩
  · rintro ⟨s, hs⟩
    exact ⟨(s, m.text), by simp [Match.selection?, hs, OptionId.selector?]⟩

namespace Draft

variable {host : Host} {s s' : Stage}

/-! ## What all selectors together say -/

/-- **Of what selectors say of one thing, the last counts.** -/
theorem said_foldl_enterSelection {α : Type} {f : Part.selection.Content → Option α}
    {tell : Selector × String → Option α}
    (hstep : ∀ c x, f (enterSelection c x) = (tell x).or (f c)) (xs : List (Selector × String))
    (c : Part.selection.Content) :
    f (xs.foldl enterSelection c) = (xs.filterMap tell).getLast?.or (f c) := by
  induction xs generalizing c with
  | nil => rfl
  | cons x xs ih =>
    rw [List.foldl_cons, ih, hstep]
    cases hx : tell x with
    | none => simp [hx]
    | some a =>
      cases hlast : (xs.filterMap tell).getLast? <;> simp [hx, List.getLast?_cons, hlast]

/-- **The selected class is the last one that a selector gives**, and something is to be done to
the device as soon as there is a selector. -/
theorem foldl_enterSelection (xs : List (Selector × String)) (c : Part.selection.Content) :
    ((xs.foldl enterSelection c).1 = none ↔ xs = [] ∧ c.1 = none) ∧
      (xs.foldl enterSelection c).2.1 = (xs.filterMap fun x => x.1.kind? x.2).getLast?.or c.2.1 := by
  have hcommand : (xs.foldl enterSelection c).1 =
      (xs.filterMap fun x => some x.1.command).getLast?.or c.1 :=
    said_foldl_enterSelection (f := fun c => c.1) (fun _ _ => rfl) xs c
  refine ⟨?_, said_foldl_enterSelection (f := fun c => c.2.1) (fun _ _ => rfl) xs c⟩
  rw [hcommand, Option.or_eq_none_iff, List.getLast?_eq_none_iff]
  simp

/-- **Which device a line has.**  There is one exactly if there is a selector, a size or a change of
an adapter, and its class is that of the selectors, or else of what the size or the change is for. -/
theorem device_of_options {target : Option String} {q q' : Preferences}
    {os : List (Occurrence OptionId)} {r : Record}
    (h : (takeAll host (⟨{ Record.ofAction .set with target := target }, ∅, []⟩, q) os).bind
      (conclude host) = some (r, q')) :
    let selections := os.filterMap (·.toMatch.selection?)
    let sized := os.any (·.id == .device .size)
    let adapted := os.any (·.id.changesAdapter)
    (r.device.command ≠ none ↔ selections ≠ [] ∨ sized = true ∨ adapted = true) ∧
      r.device.kind = (selections.filterMap fun x => x.1.kind? x.2).getLast?.or
        (if sized then some .hdd else if adapted then some .net else none) := by
  intro selections sized adapted
  have hdevice := device_of_line h
  obtain ⟨hcommand, hkind⟩ := foldl_enterSelection selections (none, none, none, none)
  simp only [and_true, Option.or_none] at hcommand hkind
  have hselections : os.filterMap (·.toMatch.selection?) = selections := rfl
  have hsized : os.any (·.id == .device .size) = sized := rfl
  have hadapted : os.any (·.id.changesAdapter) = adapted := rfl
  rw [hselections, hsized, hadapted] at hdevice
  rw [← hkind]
  have hselected : (selections.foldl enterSelection (none, none, none, none)).2.1.isSome = true →
      selections ≠ [] := by
    rw [hkind]
    intro hsome hnil
    simp [hnil] at hsome
  generalize selections.foldl enterSelection (none, none, none, none) = c at *
  clear_value selections sized adapted
  obtain ⟨command, kind, name, ifName⟩ := c
  dsimp only at hdevice hcommand hselected ⊢
  cases kind with
  | some kind =>
    obtain ⟨hr, hrest⟩ := Prod.mk.inj hdevice
    simp [hr, (Prod.mk.inj hrest).1, hcommand, hselected rfl]
  | none =>
    cases sized <;> cases adapted <;> obtain ⟨hr, hrest⟩ := Prod.mk.inj hdevice <;>
      simp [hr, (Prod.mk.inj hrest).1, hcommand]

/-! ## Attached backups -/

/-- A backup is attached by one option, and not while another one is attached or detached. -/
theorem attaches_take {m : Match OptionId} (h : take host s m = some s') :
    s'.1.record.backupCommand = some .add ↔
      m.id = .backupAdd ∨ s.1.record.backupCommand = some .add := by
  by_cases hpart : part? m.id = some .attachment
  · have hbefore : s.1.record.backupCommand = none := by
      by_contra hsome
      have hconflict : (s.1.conflict? m.id).isSome := by
        rcases isBackup_of_part? hpart with hid | hid <;>
          simp [hid, conflict?, Option.isSome_iff_ne_none.2 hsome]
      rw [take_eq_none_of_conflict hconflict] at h
      cases h
    obtain ⟨d, q⟩ := s
    dsimp only at hbefore
    rcases isBackup_of_part? hpart with hid | hid
    all_goals
      simp only [take, hid, conflict?, hbefore, applyPure, Option.isSome_none, Bool.false_eq_true,
        if_false, Except.toOption, Option.map_some, Option.some.injEq] at h
      subst h
      simp [hid, hbefore, mapRecord]
  · have hview : (s'.1.record.backupCommand, s'.1.record.backupId) =
        (s.1.record.backupCommand, s.1.record.backupId) := view_take_of_ne h hpart
    have hid : m.id ≠ .backupAdd := fun hid => hpart (by rw [hid]; rfl)
    simp [(Prod.mk.inj hview).1, hid]

theorem attaches_takeAll {os : List (Occurrence OptionId)} (h : takeAll host s os = some s') :
    s'.1.record.backupCommand = some .add ↔
      (∃ o ∈ os, o.id = .backupAdd) ∨ s.1.record.backupCommand = some .add := by
  induction os generalizing s with
  | nil => cases h; simp
  | cons o os ih =>
    obtain ⟨s₁, htake, hrest⟩ := Option.bind_eq_some_iff.1 h
    rw [ih hrest, attaches_take htake, List.exists_mem_cons_iff, or_assoc, or_left_comm]
    rfl

theorem backupCommand_of_conclude {r : Record} {q' : Preferences}
    (h : conclude host s = some (r, q')) : r.backupCommand = s.1.record.backupCommand := by
  obtain ⟨r₀, hfinish, hconsistent⟩ := exists_of_conclude h
  obtain ⟨settings, device, fate, domains, servers, rfl⟩ := exists_of_finish hfinish
  rw [Record.backupCommand_of_consistent hconsistent]

/-! ## Properties of the device -/

theorem settings_of_finish {d : Draft} {r : Record} (h : d.finish = .ok r) :
    r.device.settings = d.record.device.settings := by
  obtain ⟨d', hfate, hr⟩ := bind_eq_ok.1 h
  cases hr
  obtain ⟨hdevice, -⟩ := device_settleImageFate hfate
  obtain ⟨-, -, -, hsettings⟩ := device_settleDisk d'.record
  rw [← hdevice, ← hsettings]
  show (settleAdapter { d' with record := settleSize (settleDisk d'.record) }).device.settings = _
  generalize settleDisk d'.record = r
  unfold settleAdapter settleSize
  dsimp only
  split_ifs <;> rfl

/-- A record that is made consistent keeps the properties of its device. -/
theorem has_of_consistent {r r' : Record} {k : DeviceSetting} (h : r.consistent host = .ok r')
    (hk : r.device.settings.has k = true) : r'.device.settings.has k = true := by
  simp only [Record.consistent, bind_eq_ok] at h
  obtain ⟨-, -, r₁, h₁, r₂, h₂, -, -, h⟩ := h
  cases h
  rw [← device_of_resolveLocation h₁] at hk
  rcases Record.resolveImage_cases h₂ with rfl | ⟨full, rfl⟩
  · exact hk
  · by_cases himage : .text .image = k
    · subst himage
      simp [Device.set, Sheet.has]
    · simpa [Device.set, Sheet.has, Sheet.get?_insert_of_ne _ _ himage] using hk

/-- A property that needs a device has one on a line that is accepted, or a backup is attached. -/
theorem command_of_property {q' : Preferences} {r : Record} {k : DeviceSetting}
    (hk : k ∈ DeviceSetting.changes) (hhas : s.1.record.device.settings.has k = true)
    (h : conclude host s = some (r, q')) :
    r.device.command ≠ none ∨ r.backupCommand = some .add := by
  obtain ⟨r₀, hfinish, hconsistent⟩ := exists_of_conclude h
  rw [← settings_of_finish hfinish] at hhas
  have hupdated : r.device.isUpdated = true :=
    Bool.or_eq_true_iff.2 (.inl (List.any_eq_true.2 ⟨k, hk, has_of_consistent hconsistent hhas⟩))
  have hkept := (Record.rules_of_consistent hconsistent).2
    ⟨.deviceMissing, r.device.command.isNone && !r.backupCommand == some .add &&
      r.device.isUpdated⟩ (by simp [Record.lateRules, Record.deviceUseRules])
  simpa [hupdated, or_iff_not_imp_left] using hkept

end Draft

/-! ## Accepted lines -/

namespace Program

/-- Which device an accepted line has, told by its options. -/
theorem device_of_accepted {args : List String} {host : Host} {p : Preferences} {r : Record}
    (hset : args[1]? = some "set") (h : ((Program.guests.read args).perform host p).1 = .ok r) :
    let ms := Program.guests.options args
    (r.device.command ≠ none ↔ (∃ m ∈ ms, ∃ s, m.id = .selector s) ∨
      (∃ m ∈ ms, m.id = .device .size) ∨ ∃ m ∈ ms, m.id.changesAdapter = true) ∧
    r.device.kind = (ms.filterMap Match.kind?).getLast?.or
      (if ms.any (·.id == .device .size) then some .hdd
        else if ms.any (·.id.changesAdapter) then some .net else none) := by
  obtain ⟨q, htake⟩ := exists_takeAll_of_accepted hset h
  obtain ⟨hcommand, hkind⟩ := Draft.device_of_options htake
  rw [filterMap_selection?_occurrence, List.any_map, List.any_map] at hcommand hkind
  rw [List.filterMap_filterMap] at hkind
  intro ms
  refine ⟨?_, hkind⟩
  have hselections : ms.filterMap Match.selection? ≠ [] ↔ ∃ m ∈ ms, ∃ s, m.id = .selector s := by
    simp only [ne_eq, List.filterMap_eq_nil_iff, Option.eq_none_iff_forall_ne_some, not_forall,
      not_not, exists_prop, Match.exists_selection?_iff]
  rw [hcommand, hselections]
  simp [List.any_eq_true, ms, Match.occurrence]

/-- **The device that changes of an adapter come to.**  Let an accepted line that changes a guest
have an option that changes an adapter.  Then it has a device, and the class of that device is what
the last selector says that gives one.  If none does, the device is an adapter, or a disk if the line
has a size besides. -/
theorem adapter_change_has_device {args : List String} {host : Host} {p : Preferences} {r : Record}
    (hset : args[1]? = some "set") (h : ((Program.guests.read args).perform host p).1 = .ok r)
    (hchange : ∃ m ∈ Program.guests.options args, m.id.changesAdapter = true) :
    let selected := ((Program.guests.options args).filterMap Match.kind?).getLast?
    let sized := (Program.guests.options args).any (·.id == .device .size)
    r.device.command ≠ none ∧
      r.device.kind = some (selected.getD (if sized then .hdd else .net)) := by
  obtain ⟨hcommand, hkind⟩ := device_of_accepted hset h
  have hadapted : (Program.guests.options args).any (·.id.changesAdapter) = true :=
    List.any_eq_true.2 hchange
  intro selected sized
  refine ⟨hcommand.2 (.inr (.inr hchange)), ?_⟩
  rw [hadapted] at hkind
  change _ = selected.or (if sized then _ else _) at hkind
  rw [hkind]
  cases selected <;> cases sized <;> rfl

/-- The line `prlctl set vm1 --ipadd 10.0.0.1` changes the first adapter. -/
theorem added_address_has_adapter : ∃ r,
    ((Program.guests.read ["prlctl", "set", "vm1", "--ipadd", "10.0.0.1"]).perform
      ⟨fun _ => .error "", fun _ => .error ""⟩ .initial).1 = .ok r ∧
    r.device.command ≠ none ∧ r.device.kind = some .net := by
  have hstream : CommandTable.set.read ["prlctl", "set", "vm1", "--ipadd", "10.0.0.1"] 3 =
      ⟨[.option ⟨.ipAdd, "--ipadd", some ⟨"10.0.0.1", ⟨4, 0, 8⟩⟩⟩], none⟩ :=
    Table.read_eq_of_streamWithin (n := 2) (by rfl)
  obtain ⟨hoptions, hread⟩ := set_line_of_stream (by rfl) hstream
  have haccepted : ∃ r, ((Program.guests.read
      ["prlctl", "set", "vm1", "--ipadd", "10.0.0.1"]).perform
      ⟨fun _ => .error "", fun _ => .error ""⟩ .initial).1 = .ok r := by
    rw [hread]
    exact ⟨_, rfl⟩
  obtain ⟨r, hr⟩ := haccepted
  have hdevice := adapter_change_has_device rfl hr (by rw [hoptions]; decide)
  rw [hoptions] at hdevice
  exact ⟨r, hr, hdevice⟩

/-- The line `prlctl set vm1 --device-set hdd0 --ipadd 10.0.0.1` is accepted, and the address goes to
a disk. -/
theorem added_address_goes_to_disk : ∃ r,
    ((Program.guests.read
      ["prlctl", "set", "vm1", "--device-set", "hdd0", "--ipadd", "10.0.0.1"]).perform
      ⟨fun _ => .error "", fun _ => .error ""⟩ .initial).1 = .ok r ∧
    (∃ m ∈ Program.guests.options
      ["prlctl", "set", "vm1", "--device-set", "hdd0", "--ipadd", "10.0.0.1"], m.id = .ipAdd) ∧
    r.device.adapter.addresses = ["10.0.0.1"] ∧ r.device.kind = some .hdd := by
  have hstream : CommandTable.set.read
      ["prlctl", "set", "vm1", "--device-set", "hdd0", "--ipadd", "10.0.0.1"] 3 =
      ⟨[.option ⟨.selector .set, "--device-set", some ⟨"hdd0", ⟨4, 0, 4⟩⟩⟩,
        .option ⟨.ipAdd, "--ipadd", some ⟨"10.0.0.1", ⟨6, 0, 8⟩⟩⟩], none⟩ :=
    Table.read_eq_of_streamWithin (n := 3) (by rfl)
  obtain ⟨hoptions, hread⟩ := set_line_of_stream (by rfl) hstream
  have haccepted : ∃ r, ((Program.guests.read
      ["prlctl", "set", "vm1", "--device-set", "hdd0", "--ipadd", "10.0.0.1"]).perform
      ⟨fun _ => .error "", fun _ => .error ""⟩ .initial).1 = .ok r ∧
      r.device.adapter.addresses = ["10.0.0.1"] ∧ r.device.kind = some .hdd := by
    rw [hread]
    exact ⟨_, rfl, rfl, rfl⟩
  obtain ⟨r, hr, hdevice⟩ := haccepted
  refine ⟨r, hr, ?_, hdevice⟩
  rw [hoptions]
  exact ⟨_, List.mem_cons_of_mem _ (List.mem_cons_self ..), rfl⟩

/-- **Which lines have a device or attach a backup.**  An accepted line that changes a guest does so
exactly if it has a selector, attaches a backup, changes an adapter or has one of the properties that
are looked for in a line without a device. -/
theorem device_given_iff {args : List String} {host : Host} {p : Preferences} {r : Record}
    (hset : args[1]? = some "set") (h : ((Program.guests.read args).perform host p).1 = .ok r) :
    (r.device.command ≠ none ∨ r.backupCommand = some .add) ↔
      ∃ m ∈ Program.guests.options args, m.id.givesDevice = true := by
  obtain ⟨q, htake⟩ := exists_takeAll_of_accepted hset h
  obtain ⟨s, htaken, hconclude⟩ := Option.bind_eq_some_iff.1 htake
  obtain ⟨hcommand, -⟩ := device_of_accepted hset h
  have hbackup : r.backupCommand = some .add ↔
      ∃ m ∈ Program.guests.options args, m.id = .backupAdd := by
    rw [Draft.backupCommand_of_conclude hconclude, Draft.attaches_takeAll htaken]
    simp [Match.occurrence, Record.ofAction]
  constructor
  · rintro (hsome | hattached)
    · rcases hcommand.1 hsome with ⟨m, hm, s, hid⟩ | ⟨m, hm, hid⟩ | ⟨m, hm, hchange⟩
      · exact ⟨m, hm, by rw [hid]; rfl⟩
      · exact ⟨m, hm, by rw [hid]; rfl⟩
      · exact ⟨m, hm, OptionId.givesDevice_of_changesAdapter hchange⟩
    · obtain ⟨m, hm, hid⟩ := hbackup.1 hattached
      exact ⟨m, hm, by rw [hid]; rfl⟩
  · rintro ⟨m, hm, hgives⟩
    cases hid : m.id with
    | selector s => exact .inl (hcommand.2 (.inl ⟨m, hm, s, hid⟩))
    | backupAdd => exact .inr (hbackup.2 ⟨m, hm, hid⟩)
    | device k =>
      rw [hid] at hgives
      have hfilled : s.1.record.device.settings.has k = true :=
        (Draft.isFilled_of_empty (p := .device k) htaken rfl).2
          ⟨m.occurrence, List.mem_map_of_mem hm, Draft.part?_eq_device.2 hid⟩
      exact Draft.command_of_property (List.contains_iff_mem.1 hgives) hfilled hconclude
    | _ =>
      rw [hid] at hgives
      exact .inl (hcommand.2 (.inr (.inr ⟨m, hm, by rw [hid]; exact hgives⟩)))

/-- The line `prlctl set vm1 --size 10G` changes the first disk. -/
theorem size_has_disk : ∃ r,
    ((Program.guests.read ["prlctl", "set", "vm1", "--size", "10G"]).perform
      ⟨fun _ => .error "", fun _ => .error ""⟩ .initial).1 = .ok r ∧
    (r.device.command ≠ none ∨ r.backupCommand = some .add) := by
  have hstream : CommandTable.set.read ["prlctl", "set", "vm1", "--size", "10G"] 3 =
      ⟨[.option ⟨.device .size, "--size", some ⟨"10G", ⟨4, 0, 3⟩⟩⟩], none⟩ :=
    Table.read_eq_of_streamWithin (n := 2) (by rfl)
  obtain ⟨hoptions, hread⟩ := set_line_of_stream (by rfl) hstream
  have haccepted : ∃ r, ((Program.guests.read ["prlctl", "set", "vm1", "--size", "10G"]).perform
      ⟨fun _ => .error "", fun _ => .error ""⟩ .initial).1 = .ok r := by
    rw [hread]
    exact ⟨_, rfl⟩
  obtain ⟨r, hr⟩ := haccepted
  exact ⟨r, hr, (device_given_iff rfl hr).2 (by rw [hoptions]; decide)⟩

/-- The line `prlctl set vm1 --mnt /x` is accepted, and tells where nothing is mounted. -/
theorem mount_point_has_no_device : ∃ r,
    ((Program.guests.read ["prlctl", "set", "vm1", "--mnt", "/x"]).perform
      ⟨fun _ => .error "", fun _ => .error ""⟩ .initial).1 = .ok r ∧
    (∃ m ∈ Program.guests.options ["prlctl", "set", "vm1", "--mnt", "/x"],
      m.id = .device (.text .mountPoint)) ∧
    r.device.command = none ∧ r.backupCommand = none := by
  have hstream : CommandTable.set.read ["prlctl", "set", "vm1", "--mnt", "/x"] 3 =
      ⟨[.option ⟨.device (.text .mountPoint), "--mnt", some ⟨"/x", ⟨4, 0, 2⟩⟩⟩], none⟩ :=
    Table.read_eq_of_streamWithin (n := 2) (by rfl)
  obtain ⟨hoptions, hread⟩ := set_line_of_stream (by rfl) hstream
  have haccepted : ∃ r, ((Program.guests.read ["prlctl", "set", "vm1", "--mnt", "/x"]).perform
      ⟨fun _ => .error "", fun _ => .error ""⟩ .initial).1 = .ok r ∧
      r.device.command = none ∧ r.backupCommand = none := by
    rw [hread]
    exact ⟨_, rfl, rfl, rfl⟩
  obtain ⟨r, hr, hdevice⟩ := haccepted
  refine ⟨r, hr, ?_, hdevice⟩
  rw [hoptions]
  exact ⟨_, List.mem_cons_self .., rfl⟩

end Program

end VmControl
