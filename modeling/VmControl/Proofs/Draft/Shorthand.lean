import VmControl.Proofs.Draft.Device
import VmControl.Proofs.Line.Spelling
import VmControl.Proofs.Options.Continuation

/-!
# A size without a device

A size without a device is for the first disk.  A line that leaves this device out comes to what the
line comes to that selects it, with one difference.  Settings of disk images go to the device if that
is a disk, but they do so before the size stands for the disk.  So they stay with the guest if the
device is left out.

## Main definitions

* `Draft.onFirstDisk`: the first disk selected after all.
* `Options.Match.isDiskSetting`: the options whose values go to the device if that is a disk.

## Main statements

* `Draft.alike_takeAll_onFirstDisk`: the disk can be selected before other options or after them.
* `Draft.conclude_onFirstDisk`: what the end of the line makes of it.
* `size_shorthand`: what a size without a device comes to.
-/

namespace VmControl

open Numeral Options

/-- Whether the value of an option goes to the device if that is a disk. -/
def Options.Match.isDiskSetting (m : Match OptionId) : Bool :=
  match m.id with
  | .setting (.switch .autoCompact) => true
  | .blockSize => (digits word32 m.text.toList).isSome
  | _ => false

/-- Whether the record has settings that go to the device if that is a disk. -/
def Record.hasDiskSettings (r : Record) : Bool :=
  r.settings.has (.switch .autoCompact) || r.blockSize.isSome

namespace Draft

variable {host : Host}

/-! ## Selecting the first disk -/

/-- The first disk selected. -/
def onFirstDisk (s : Stage) : Stage :=
  (s.1.mapRecord fun r => { r with device := { r.device with
    name := some "hdd0", kind := some .hdd, command := some .set } }, s.2)

theorem view_onFirstDisk_of_ne (s : Stage) {p : Part} (hp : p ≠ .selection) :
    view (onFirstDisk s) p = view s p := by
  cases p <;> first | rfl | exact absurd rfl hp

theorem view_onFirstDisk_selection {s t : Stage} (h : view s .selection = view t .selection) :
    view (onFirstDisk s) .selection = view (onFirstDisk t) .selection := by
  have hifName : s.1.adapter.ifName = t.1.adapter.ifName :=
    congrArg (fun c : Part.selection.Content => c.2.2.2) h
  show (_, _, _, s.1.adapter.ifName) = (_, _, _, t.1.adapter.ifName)
  rw [hifName]
  rfl

theorem ne_selection_of_reads {id : OptionId} {p : Part} (hid : id.selector? = none)
    (h : Reads id p) : p ≠ .selection := by
  rintro rfl
  rcases h with hpart | hwatched
  · obtain ⟨k, rfl⟩ := exists_selector hpart
    cases hid
  · cases id with
    | device k =>
      cases k with
      | text k => cases k <;> simp [watched] at hwatched
      | mark k => simp [watched] at hwatched
      | _ => cases hwatched
    | _ => simp [watched] at hwatched

/-- **The disk can be selected before an option or after it.** -/
theorem alike_take_onFirstDisk {m : Match OptionId} (hm : m.id.selector? = none) (s : Stage) :
    Alike (take host (onFirstDisk s) m) ((take host s m).map onFirstDisk) := by
  have hrel : Option.Rel (fun s' t' => ∀ p, part? m.id = some p → view s' p = view t' p)
      (take host (onFirstDisk s) m) (take host s m) :=
    take_congr fun p hp => view_onFirstDisk_of_ne s (ne_selection_of_reads hm hp)
  generalize hselected : take host (onFirstDisk s) m = x at hrel
  generalize hafter : take host s m = y at hrel
  cases hrel with
  | none => exact .none
  | @some _ s' hown =>
    refine .some (funext fun p => ?_)
    by_cases hpart : part? m.id = some p
    · rw [hown p hpart, view_onFirstDisk_of_ne s' (ne_selection_of_reads hm (.inl hpart))]
    · rw [view_take_of_ne hselected hpart]
      by_cases hp : p = .selection
      · subst hp
        exact view_onFirstDisk_selection (view_take_of_ne hafter hpart).symm
      · rw [view_onFirstDisk_of_ne s hp, view_onFirstDisk_of_ne s' hp, view_take_of_ne hafter hpart]

theorem alike_takeAll_onFirstDisk {os : List (Occurrence OptionId)}
    (hos : ∀ o ∈ os, o.id.selector? = none) (s : Stage) :
    Alike (takeAll host (onFirstDisk s) os) ((takeAll host s os).map onFirstDisk) := by
  induction os generalizing s with
  | nil => exact Alike.refl _
  | cons o os ih =>
    obtain ⟨ho, hos⟩ := List.forall_mem_cons.1 hos
    have hstep : Alike (take host (onFirstDisk s) o.toMatch)
        ((take host s o.toMatch).map onFirstDisk) := alike_take_onFirstDisk ho s
    have hrest (s t : Stage) (h : view s = view t) :
        Alike (takeAll host s os) (takeAll host t os) :=
      takeAll_alike h os
    refine (hstep.bind hrest).trans ?_
    show Alike _ (((take host s o.toMatch).bind fun s => takeAll host s os).map onFirstDisk)
    cases take host s o.toMatch with
    | none => exact .none
    | some s' => exact ih hos s'

/-- The disk is selected by its name. -/
theorem take_firstDisk {s : Stage} (h : s.1.record.device.command = none) :
    take host s (Occurrence.toMatch ⟨.selector .set, "--device-set", some "hdd0"⟩) =
      some (onFirstDisk s) := by
  have hname : deviceName "hdd0" = "hdd0" := by decide
  have hkind : kindOfName? "hdd0" = some .hdd := by decide
  simp [take, Occurrence.toMatch, conflict?, h, applyPure, Match.text, select, hkind, hname,
    Except.toOption, onFirstDisk, mapRecord]

/-! ## The end of the line -/

theorem settleAdapter_settleDisk {d : Draft} (h : d.record.device.kind = some .hdd) :
    (d.mapRecord settleDisk).settleAdapter = settleDisk d.settleAdapter := by
  simp [settleAdapter, settleDisk, mapRecord, h]

/-- **Selecting the disk before the end of the line** makes the settings of disk images go there. -/
theorem finish_onFirstDisk {s : Stage} (hkind : s.1.record.device.kind = none)
    (hsize : s.1.record.device.settings.has .size = true) :
    (onFirstDisk s).1.finish = s.1.finish.map settleDisk := by
  have hfate : (onFirstDisk s).1.settleImageFate =
      s.1.settleImageFate.map fun d => (onFirstDisk (d, s.2)).1 :=
    settleImageFate_mapRecord (fun _ _ => rfl) s.1
  unfold finish
  rw [hfate]
  cases hd : s.1.settleImageFate with
  | error u => rfl
  | ok d =>
    obtain ⟨hdevice, -⟩ := device_settleImageFate hd
    -- Without a class nothing is moved, and then the size selects the disk.
    have hleft : settleSize (settleDisk d.record) = (onFirstDisk (d, s.2)).1.record := by
      have hstays : settleDisk d.record = d.record := by simp [settleDisk, hdevice, hkind]
      rw [hstays]
      simp [settleSize, hdevice, hkind, hsize, onFirstDisk, mapRecord]
    have hgone : settleSize (settleDisk (onFirstDisk (d, s.2)).1.record) =
        settleDisk (onFirstDisk (d, s.2)).1.record := by
      simp [settleSize, settleDisk, onFirstDisk, mapRecord]
    show Except.ok (settleAdapter { (onFirstDisk (d, s.2)).1 with
        record := settleSize (settleDisk (onFirstDisk (d, s.2)).1.record) }) =
      Except.ok (settleDisk (settleAdapter { d with record := settleSize (settleDisk d.record) }))
    rw [hgone, hleft]
    exact congrArg Except.ok (settleAdapter_settleDisk (d := (onFirstDisk (d, s.2)).1) rfl)

end Draft

namespace Record

variable {host : Host} {r r' : Record}

theorem get?_settleDisk {k : Setting} (hk : .switch .autoCompact ≠ k) (r : Record) :
    (Draft.settleDisk r).settings.get? k = r.settings.get? k := by
  unfold Draft.settleDisk
  split
  · exact Sheet.get?_erase_of_ne _ hk
  · rfl

/-- No rule looks at the settings of disk images, apart from whether the device is changed. -/
theorem earlyRules_settleDisk (r : Record) : (Draft.settleDisk r).earlyRules = r.earlyRules := by
  have hdevice : (Draft.settleDisk r).deviceKindRules = r.deviceKindRules := by
    unfold Draft.settleDisk
    split <;> rfl
  have haction : (Draft.settleDisk r).action = r.action := by
    unfold Draft.settleDisk
    split <;> rfl
  have hsource : (Draft.settleDisk r).kind = r.kind ∧ (Draft.settleDisk r).guest = r.guest := by
    unfold Draft.settleDisk
    split <;> exact ⟨rfl, rfl⟩
  simp only [earlyRules, sourceRules, actionRules, has, hasText, Sheet.has, hdevice, haction,
    hsource]
  rw [get?_settleDisk (by decide), get?_settleDisk (by decide), get?_settleDisk (by decide),
    get?_settleDisk (by decide)]

theorem lateRules_settleDisk (hsize : r.device.settings.has .size = true) :
    (Draft.settleDisk r).lateRules = r.lateRules := by
  have hupdated (d : Device) (hd : d.settings.has .size = true) : d.isUpdated = true := by
    simp [Device.isUpdated, DeviceSetting.changes, hd]
  have hsettled : (Draft.settleDisk r).device.settings.has .size = true := by
    rw [(Draft.device_settleDisk r).2.2.2]
    exact hsize
  have hdisk := get?_settleDisk (k := .text .backupDisk) (by decide) r
  simp only [lateRules, deviceUseRules, backupRules, hasText, Sheet.has, hupdated _ hsettled,
    hupdated _ hsize]
  rw [hdisk]
  unfold Draft.settleDisk
  split <;> rfl

theorem resolveLocation_settleDisk (r : Record) :
    (Draft.settleDisk r).resolveLocation host = (r.resolveLocation host).map Draft.settleDisk := by
  have htext : (Draft.settleDisk r).text? .location = r.text? .location :=
    get?_settleDisk (by decide) r
  have hlogin : (Draft.settleDisk r).login = r.login := by
    unfold Draft.settleDisk
    split <;> rfl
  have hset (full : String) : (Draft.settleDisk r).set (.text .location) full =
      Draft.settleDisk (r.set (.text .location) full) := by
    have hget : (r.settings.insert (.text .location) full).get? (.switch .autoCompact) =
        r.settings.get? (.switch .autoCompact) :=
      Sheet.get?_insert_of_ne _ _ (by decide)
    have herase : (r.settings.insert (.text .location) full).erase (.switch .autoCompact) =
        (r.settings.erase (.switch .autoCompact)).insert (.text .location) full :=
      Sheet.erase_insert_comm _ _ (by decide)
    unfold Draft.settleDisk Record.set
    dsimp only
    rw [hget, herase]
    split <;> rfl
  unfold resolveLocation
  rw [htext, hlogin]
  cases r.text? .location with
  | none => rfl
  | some path =>
    dsimp only
    cases resolvePath host r.login.isRemote path with
    | error u => rfl
    | ok full => exact congrArg Except.ok (hset full)

theorem resolveImage_settleDisk (r : Record) :
    (Draft.settleDisk r).resolveImage host = (r.resolveImage host).map Draft.settleDisk := by
  have htext : (Draft.settleDisk r).device.text? .image = r.device.text? .image := by
    unfold Device.text?
    rw [(Draft.device_settleDisk r).2.2.2]
  have hlogin : (Draft.settleDisk r).login = r.login := by
    unfold Draft.settleDisk
    split <;> rfl
  unfold resolveImage
  rw [htext, hlogin]
  cases r.device.text? .image with
  | none => rfl
  | some path =>
    dsimp only
    cases resolvePath host r.login.isRemote path with
    | error u => rfl
    | ok full =>
      refine congrArg Except.ok ?_
      unfold Draft.settleDisk Device.set
      dsimp only
      split <;> rfl

theorem bind_map {α : Type} {x : Except CommandError α} {f : α → α}
    {g : α → Except CommandError α} (h : ∀ a, x = .ok a → g (f a) = (g a).map f) :
    x.map f >>= g = (x >>= g).map f := by
  cases x with
  | error u => rfl
  | ok a => exact h a rfl

/-- **The settings of disk images can go to a disk before its record is made consistent or after**,
if its size is changed. -/
theorem consistent_settleDisk (hsize : r.device.settings.has .size = true) :
    (Draft.settleDisk r).consistent host = (r.consistent host).map Draft.settleDisk := by
  unfold consistent
  rw [earlyRules_settleDisk, resolveLocation_settleDisk]
  cases Rule.enforce r.earlyRules with
  | error u => rfl
  | ok _ =>
    refine bind_map fun r₁ h₁ => ?_
    have hsize₁ : r₁.device.settings.has .size = true := by
      rwa [device_of_resolveLocation h₁]
    rw [resolveImage_settleDisk]
    refine bind_map fun r₂ h₂ => ?_
    have hsize₂ : r₂.device.settings.has .size = true := by
      rcases resolveImage_cases h₂ with rfl | ⟨full, rfl⟩
      · exact hsize₁
      · rw [← hsize₁]
        exact congrArg Option.isSome (Sheet.get?_insert_of_ne _ _ (by decide))
    rw [lateRules_settleDisk hsize₂]
    cases Rule.enforce r₂.lateRules <;> rfl

end Record

namespace Draft

variable {host : Host}

/-- **What the end of the line makes of a disk that is selected after all.** -/
theorem conclude_onFirstDisk {s : Stage} (hkind : s.1.record.device.kind = none)
    (hsize : s.1.record.device.settings.has .size = true) :
    conclude host (onFirstDisk s) = (conclude host s).map fun x => (settleDisk x.1, x.2) := by
  unfold conclude
  rw [finish_onFirstDisk hkind hsize]
  cases hfinish : s.1.finish with
  | error u => rfl
  | ok r =>
    have hsize' : r.device.settings.has .size = true := by
      rwa [settings_of_finish hfinish]
    show ((settleDisk r).consistent host).toOption.map _ = ((r.consistent host).toOption.map _).map _
    rw [Record.consistent_settleDisk hsize']
    cases r.consistent host <;> rfl

/-! ## What goes to the disk -/

theorem hasDiskSettings_take {s s' : Stage} {m : Match OptionId} (h : take host s m = some s') :
    s'.1.record.hasDiskSettings = (m.isDiskSetting || s.1.record.hasDiskSettings) := by
  by_cases hcompact : m.id = .setting (.switch .autoCompact)
  · obtain ⟨v, -, hget⟩ := setting_of_take h hcompact
    simp [Match.isDiskSetting, hcompact, Record.hasDiskSettings, Sheet.has, hget]
  · by_cases hblock : m.id = .blockSize
    · obtain ⟨d, q⟩ := s
      simp only [take, hblock] at h
      cases hn : digits word32 m.text.toList with
      | none =>
        rw [hn] at h
        cases h
        simp [Match.isDiskSetting, hblock, hn]
      | some n =>
        rw [hn] at h
        cases h
        simp [Match.isDiskSetting, hblock, hn, Record.hasDiskSettings, mapRecord]
    · have hneither : m.isDiskSetting = false := by
        unfold Match.isDiskSetting
        split
        · next hid => exact absurd hid hcompact
        · next hid => exact absurd hid hblock
        · rfl
      have hsetting : s'.1.record.settings.get? (.switch .autoCompact) =
          s.1.record.settings.get? (.switch .autoCompact) :=
        view_take_of_ne (p := .setting (.switch .autoCompact)) h fun hpart =>
          hcompact (List.mem_singleton.1 (mem_writers hpart))
      have hsize : s'.1.record.blockSize = s.1.record.blockSize :=
        view_take_of_ne (p := .blockSize) h fun hpart => hblock (List.mem_singleton.1 (mem_writers hpart))
      simp only [Record.hasDiskSettings, Sheet.has, hneither, hsetting, hsize, Bool.false_or]

theorem hasDiskSettings_takeAll {s s' : Stage} {os : List (Occurrence OptionId)}
    (h : takeAll host s os = some s') : s'.1.record.hasDiskSettings =
      (os.any (·.toMatch.isDiskSetting) || s.1.record.hasDiskSettings) := by
  induction os generalizing s with
  | nil => cases h; rfl
  | cons o os ih =>
    obtain ⟨s₁, htake, hrest⟩ := Option.bind_eq_some_iff.1 h
    rw [ih hrest, hasDiskSettings_take htake, List.any_cons, ← Bool.or_assoc,
      Bool.or_comm (os.any _)]

theorem unsaid_of_takeAll {s s' : Stage} {os : List (Occurrence OptionId)}
    (h : takeAll host s os = some s') : unsaid s'.1.record = unsaid s.1.record := by
  induction os generalizing s with
  | nil => cases h; rfl
  | cons o os ih =>
    obtain ⟨s₁, htake, hrest⟩ := Option.bind_eq_some_iff.1 h
    exact (ih hrest).trans (unsaid_of_take htake)

/-- Without a device the settings of disk images stay with the guest. -/
theorem hasDiskSettings_of_finish {d : Draft} {r : Record} (hkind : d.record.device.kind = none)
    (h : d.finish = .ok r) : r.hasDiskSettings = d.record.hasDiskSettings ∧
      r.device.blockSize = d.record.device.blockSize := by
  obtain ⟨d', hfate, hr⟩ := bind_eq_ok.1 h
  cases hr
  obtain ⟨fate, rfl⟩ := exists_of_settleImageFate hfate
  have hstays : settleDisk { d.record with imageFate := fate } =
      { d.record with imageFate := fate } := by
    simp [settleDisk, hkind]
  show (settleAdapter { d with
      record := settleSize (settleDisk { d.record with imageFate := fate }) }).hasDiskSettings = _ ∧
    (settleAdapter { d with
      record := settleSize (settleDisk { d.record with imageFate := fate }) }).device.blockSize = _
  rw [hstays]
  unfold settleAdapter settleSize
  dsimp only
  split_ifs <;> exact ⟨rfl, rfl⟩

theorem hasDiskSettings_of_consistent {r r' : Record} (h : r.consistent host = .ok r') :
    r'.hasDiskSettings = r.hasDiskSettings ∧ r'.device.blockSize = r.device.blockSize := by
  simp only [Record.consistent, bind_eq_ok] at h
  obtain ⟨-, -, r₁, h₁, r₂, h₂, -, -, h⟩ := h
  cases h
  have hlocation : r₁.hasDiskSettings = r.hasDiskSettings := by
    rcases Record.resolveLocation_cases h₁ with rfl | ⟨full, rfl⟩
    · rfl
    · have hget : (r.settings.insert (.text .location) full).get? (.switch .autoCompact) =
          r.settings.get? (.switch .autoCompact) :=
        Sheet.get?_insert_of_ne _ _ (by decide)
      simp only [Record.hasDiskSettings, Record.set, Sheet.has, hget]
  rw [← hlocation, ← device_of_resolveLocation h₁]
  rcases Record.resolveImage_cases h₂ with rfl | ⟨full, rfl⟩ <;> exact ⟨rfl, rfl⟩

theorem settleDisk_eq_self_iff {r : Record} (hkind : r.device.kind = some .hdd)
    (hblock : r.device.blockSize = none) : settleDisk r = r ↔ r.hasDiskSettings = false := by
  constructor
  · intro hstays
    have hcompact : r.settings.get? (.switch .autoCompact) = none := by
      rw [← hstays]
      simp [settleDisk, hkind]
    have hsize : r.blockSize = none := by
      have hmoved : (settleDisk r).device.blockSize = r.blockSize := by
        simp [settleDisk, hkind, hblock]
      rw [← hmoved, hstays, hblock]
    simp [Record.hasDiskSettings, Sheet.has, hcompact, hsize]
  · intro hnone
    obtain ⟨hcompact, hsize⟩ := Bool.or_eq_false_iff.1 hnone
    have hcompact : r.settings.get? (.switch .autoCompact) = none := by
      simpa [Sheet.has] using hcompact
    have hmoved : (r.blockSize.orElse fun _ => r.device.blockSize) = r.device.blockSize := by
      rw [show r.blockSize = none by simpa using hsize]
      rfl
    unfold settleDisk
    dsimp only
    rw [if_pos hkind, Sheet.erase_of_get?_eq_none hcompact, hcompact, hmoved]
    rfl

/-- **What goes to a disk that is selected after all**: nothing exactly if no option is for a setting
of disk images. -/
theorem settleDisk_eq_self_iff_of_conclude {target : Option String} {q q' : Preferences}
    {os : List (Occurrence OptionId)} {s : Stage} {r : Record}
    (htake : takeAll host (⟨{ Record.ofAction .set with target := target }, ∅, []⟩, q) os = some s)
    (hkind : s.1.record.device.kind = none)
    (hsize : s.1.record.device.settings.has .size = true) (h : conclude host s = some (r, q')) :
    settleDisk r = r ↔ ∀ o ∈ os, o.toMatch.isDiskSetting = false := by
  obtain ⟨r₀, hfinish, hconsistent⟩ := exists_of_conclude h
  obtain ⟨hsettings, hblock⟩ := hasDiskSettings_of_consistent hconsistent
  obtain ⟨hsettings₀, hblock₀⟩ := hasDiskSettings_of_finish hkind hfinish
  have hdisk : r.device.kind = some .hdd := by
    have hselected := selection_of_finish hfinish
    rw [← selection_of_consistent hconsistent] at hselected
    simp only [hkind, hsize] at hselected
    exact (Prod.mk.inj (Prod.mk.inj hselected).2).1
  have hnone : r.device.blockSize = none := by
    rw [hblock, hblock₀]
    exact congrArg (fun r : Record => r.device.blockSize) (unsaid_of_takeAll htake)
  have hstart : { Record.ofAction .set with target := target }.hasDiskSettings = false := rfl
  rw [settleDisk_eq_self_iff hdisk hnone, hsettings, hsettings₀, hasDiskSettings_takeAll htake,
    hstart, Bool.or_false, List.any_eq_false]
  simp

/-- **A size without a device, and the first disk selected before it.**  Both lines are turned down,
or the settings of disk images go to the disk in the second one only. -/
theorem takeAll_shorthand (host : Host) (target : Option String) (q : Preferences) (size : String)
    {os : List (Occurrence OptionId)} (hos : ∀ o ∈ os, o.id.selector? = none) :
    let start : Stage := (⟨{ Record.ofAction .set with target := target }, ∅, []⟩, q)
    let shorthand := (takeAll host start (⟨.device .size, "--diskspace", some size⟩ :: os)).bind
      (conclude host)
    (takeAll host start (⟨.selector .set, "--device-set", some "hdd0"⟩ ::
        ⟨.device .size, "--diskspace", some size⟩ :: os)).bind (conclude host) =
      shorthand.map (fun x => (settleDisk x.1, x.2)) ∧
    ∀ x, shorthand = some x →
      (settleDisk x.1 = x.1 ↔ ∀ o ∈ os, o.toMatch.isDiskSetting = false) := by
  intro start shorthand
  have hselect : takeAll host start (⟨.selector .set, "--device-set", some "hdd0"⟩ ::
      ⟨.device .size, "--diskspace", some size⟩ :: os) =
      takeAll host (onFirstDisk start) (⟨.device .size, "--diskspace", some size⟩ :: os) := by
    rw [takeAll, take_firstDisk rfl]
    rfl
  have hall : ∀ o ∈ (⟨.device .size, "--diskspace", some size⟩ : Occurrence OptionId) :: os,
      o.id.selector? = none :=
    List.forall_mem_cons.2 ⟨rfl, hos⟩
  rw [hselect, (alike_takeAll_onFirstDisk hall start).bind_eq fun _ _ h => conclude_congr h]
  change Option.bind _ _ = Option.map _ (Option.bind _ _) ∧ ∀ x, Option.bind _ _ = some x → _
  cases htake : takeAll host start (⟨.device .size, "--diskspace", some size⟩ :: os) with
  | none =>
    refine ⟨rfl, fun x hx => ?_⟩
    cases hx
  | some s =>
    have hselection : view s .selection = view start .selection :=
      view_takeAll_of_ne htake fun o ho hpart => by
        obtain ⟨k, hk⟩ := exists_selector hpart
        have hnone := hall o ho
        rw [hk] at hnone
        cases hnone
    have hkind : s.1.record.device.kind = none :=
      congrArg (fun c : Part.selection.Content => c.2.1) hselection
    have hsize : s.1.record.device.settings.has .size = true :=
      (isFilled_of_empty (p := .device .size) htake rfl).2 ⟨_, List.mem_cons_self .., rfl⟩
    refine ⟨conclude_onFirstDisk hkind hsize, fun x hx => ?_⟩
    rw [settleDisk_eq_self_iff_of_conclude htake hkind hsize hx, List.forall_mem_cons]
    exact and_iff_right rfl

end Draft

/-! ## Whole lines -/

/-- What a line comes to that changes a guest and starts with some options: if the rest consists of
options they follow, and otherwise the line is turned down. -/
theorem outcome_set_line_behind (offset : Nat) (args : List String) (ms : List (Match OptionId))
    {n : Nat} {rest : List String}
    (hread : CommandTable.set.read args (offset + 1) =
      .after (ms.map .option) ((⟨n, rest, none⟩ : Cursor).stream CommandTable.set))
    (host : Host) (e : Effects) :
    ((∃ os, (CommandTable.set.read rest 0).Says os) →
      (readGuestLine .set CommandTable.set offset args).outcome host e =
        (Draft.takeAll host (⟨{ Record.ofAction .set with target := args[offset]? }, ∅, []⟩,
          e.preferences) (ms.map Match.occurrence ++
            (CommandTable.set.read rest 0).options.map Match.occurrence)).bind
          (Draft.conclude host)) ∧
    ((¬ ∃ os, (CommandTable.set.read rest 0).Says os) →
      (readGuestLine .set CommandTable.set offset args).outcome host e = none) := by
  have hsame (i j : Nat) : Stream.Same (fun _ _ => True)
      ((⟨i, rest, none⟩ : Cursor).stream CommandTable.set)
      ((⟨j, rest, none⟩ : Cursor).stream CommandTable.set) :=
    Cursor.same_stream_drop (fun _ => trivial) rest
  constructor
  · rintro ⟨os, hos⟩
    obtain rfl := hos.eq_options
    have hsays := (hos.same (hsame 0 n)).after ms
    rw [← hread] at hsays
    exact outcome_set_line hsays host e
  · intro hnone
    rw [Option.eq_none_iff_forall_ne_some]
    intro b hb
    have hsays := says_of_readGuestLine hb
    rw [hread] at hsays
    obtain ⟨os, hos⟩ := Stream.exists_says_of_after hsays
    exact hnone ⟨os, hos.same (hsame n 0)⟩

theorem isDiskSetting_occurrence (m : Match OptionId) :
    m.occurrence.toMatch.isDiskSetting = m.isDiskSetting := by
  unfold Match.isDiskSetting
  rw [m.toMatch_occurrence_text]
  rfl

/-- **What a size without a device comes to.**  Compare a line that changes a guest and starts with a
size to the one that selects the first disk before it, where no other option selects a device.  If
one of them is turned down then so is the other one.  If both are accepted, the second one comes to
the same but for the settings of disk images, which it gives to the disk.  So both come to the same
exactly if they are turned down or no option is for such a setting. -/
theorem size_shorthand (name target size : String) (rest : List String)
    (hrest : ∀ m ∈ (CommandTable.set.read rest 0).options, m.id.selector? = none) (host : Host)
    (e : Effects) :
    let shorthand := (readGuestLine .set CommandTable.set 2
      (name :: "set" :: target :: "--diskspace" :: size :: rest)).outcome host e
    let explicit := (readGuestLine .set CommandTable.set 2
      (name :: "set" :: target :: "--device-set" :: "hdd0" :: "--diskspace" :: size :: rest)).outcome
        host e
    explicit = shorthand.map (fun x => (Draft.settleDisk x.1, x.2)) ∧
    (explicit = shorthand ↔ shorthand = none ∨
      ∀ m ∈ (CommandTable.set.read rest 0).options, m.isDiskSetting = false) := by
  intro shorthand explicit
  have hfindSize : CommandTable.set.findLong? "diskspace" =
      some (.value "diskspace" (.device .size)) := by decide
  have hsize (index : Nat) : Pieces CommandTable.set index
      ([⟨.device .size, "--diskspace", some (.whole (index + 1) size)⟩].map .option)
      ["--diskspace", size] :=
    (Piece.longSeparate size hfindSize rfl (by decide) (by decide)).pieces
  have hfindSet : CommandTable.set.findLong? "device-set" =
      some (.value "device-set" (.selector .set)) := by decide
  have hselect (index : Nat) : Pieces CommandTable.set index
      ([⟨.selector .set, "--device-set", some (.whole (index + 1) "hdd0")⟩].map .option)
      ["--device-set", "hdd0"] :=
    (Piece.longSeparate "hdd0" hfindSet rfl (by decide) (by decide)).pieces
  obtain ⟨hsaid, hunsaid⟩ := outcome_set_line_behind 2
    (name :: "set" :: target :: "--diskspace" :: size :: rest)
    [⟨.device .size, "--diskspace", some (.whole 4 size)⟩] ((hsize 3).stream rest) host e
  obtain ⟨hsaid', hunsaid'⟩ := outcome_set_line_behind 2
    (name :: "set" :: target :: "--device-set" :: "hdd0" :: "--diskspace" :: size :: rest)
    [⟨.selector .set, "--device-set", some (.whole 4 "hdd0")⟩,
      ⟨.device .size, "--diskspace", some (.whole 6 size)⟩]
    (((hselect 3).append (hsize 5)).stream rest) host e
  by_cases hoptions : ∃ os, (CommandTable.set.read rest 0).Says os
  · have hos : ∀ o ∈ (CommandTable.set.read rest 0).options.map Match.occurrence,
        o.id.selector? = none :=
      List.forall_mem_map.2 hrest
    have hshorthand : shorthand = _ := hsaid hoptions
    have hexplicit : explicit = _ := hsaid' hoptions
    obtain ⟨hmoved, hstays⟩ := Draft.takeAll_shorthand host (some target) e.preferences size hos
    have hmap : explicit = shorthand.map fun x => (Draft.settleDisk x.1, x.2) := by
      rw [hexplicit, hshorthand]
      exact hmoved
    refine ⟨hmap, ?_⟩
    rw [hmap]
    cases hx : shorthand with
    | none => simp
    | some x =>
      have hsame := hstays x (hshorthand.symm.trans hx)
      rw [List.forall_mem_map] at hsame
      simp only [isDiskSetting_occurrence] at hsame
      simp [← hsame, Prod.ext_iff]
  · have hnone : shorthand = none := hunsaid hoptions
    have hnone' : explicit = none := hunsaid' hoptions
    simp [hnone, hnone']

/-- The line `prlctl set vm1 --diskspace 2048 --compat` comes to the record that
`prlctl set vm1 --device-set hdd0 --diskspace 2048 --compat` comes to. -/
theorem size_shorthand_compat : ∃ x,
    (readGuestLine .set CommandTable.set 2
      ["prlctl", "set", "vm1", "--diskspace", "2048", "--compat"]).outcome
      ⟨fun _ => .error "", fun _ => .error ""⟩ (.start .initial) = some x ∧
    (readGuestLine .set CommandTable.set 2
      ["prlctl", "set", "vm1", "--device-set", "hdd0", "--diskspace", "2048", "--compat"]).outcome
      ⟨fun _ => .error "", fun _ => .error ""⟩ (.start .initial) = some x := by
  have hstream : CommandTable.set.read
      ["prlctl", "set", "vm1", "--diskspace", "2048", "--compat"] 3 =
      ⟨[.option ⟨.device .size, "--diskspace", some ⟨"2048", ⟨4, 0, 4⟩⟩⟩,
        .option ⟨.compat, "--compat", none⟩], none⟩ :=
    Table.read_eq_of_streamWithin (n := 3) (by rfl)
  have haccepted : ∃ x, (readGuestLine .set CommandTable.set 2
      ["prlctl", "set", "vm1", "--diskspace", "2048", "--compat"]).outcome
      ⟨fun _ => .error "", fun _ => .error ""⟩ (.start .initial) = some x := by
    unfold readGuestLine
    rw [hstream]
    exact ⟨_, rfl⟩
  have hrest : CommandTable.set.read ["--compat"] 0 = ⟨[.option ⟨.compat, "--compat", none⟩], none⟩ :=
    Table.read_eq_of_streamWithin (n := 2) (by rfl)
  obtain ⟨x, hx⟩ := haccepted
  refine ⟨x, hx, Eq.trans ?_ hx⟩
  refine (size_shorthand "prlctl" "vm1" "2048" ["--compat"] ?_ _ _).2.2 (.inr ?_)
  all_goals
    rw [hrest]
    decide

/-- The line `prlctl set vm1 --diskspace 2048 --autocompact on` leaves the disk as it is, other than
`prlctl set vm1 --device-set hdd0 --diskspace 2048 --autocompact on`. -/
theorem size_shorthand_leaves_disk : ∃ r r' q,
    (∀ m ∈ (CommandTable.set.read ["--autocompact", "on"] 0).options, m.id.selector? = none) ∧
    (readGuestLine .set CommandTable.set 2
      ["prlctl", "set", "vm1", "--diskspace", "2048", "--autocompact", "on"]).outcome
      ⟨fun _ => .error "", fun _ => .error ""⟩ (.start .initial) = some (r, q) ∧
    (readGuestLine .set CommandTable.set 2 ["prlctl", "set", "vm1", "--device-set", "hdd0",
      "--diskspace", "2048", "--autocompact", "on"]).outcome
      ⟨fun _ => .error "", fun _ => .error ""⟩ (.start .initial) = some (r', q) ∧
    r.device.autoCompact = none ∧ r'.device.autoCompact = some true := by
  have hstream : CommandTable.set.read
      ["prlctl", "set", "vm1", "--diskspace", "2048", "--autocompact", "on"] 3 =
      ⟨[.option ⟨.device .size, "--diskspace", some ⟨"2048", ⟨4, 0, 4⟩⟩⟩,
        .option ⟨.setting (.switch .autoCompact), "--autocompact", some ⟨"on", ⟨6, 0, 2⟩⟩⟩], none⟩ :=
    Table.read_eq_of_streamWithin (n := 3) (by rfl)
  have hstream' : CommandTable.set.read ["prlctl", "set", "vm1", "--device-set", "hdd0",
      "--diskspace", "2048", "--autocompact", "on"] 3 =
      ⟨[.option ⟨.selector .set, "--device-set", some ⟨"hdd0", ⟨4, 0, 4⟩⟩⟩,
        .option ⟨.device .size, "--diskspace", some ⟨"2048", ⟨6, 0, 4⟩⟩⟩,
        .option ⟨.setting (.switch .autoCompact), "--autocompact", some ⟨"on", ⟨8, 0, 2⟩⟩⟩], none⟩ :=
    Table.read_eq_of_streamWithin (n := 4) (by rfl)
  have hrest : CommandTable.set.read ["--autocompact", "on"] 0 =
      ⟨[.option ⟨.setting (.switch .autoCompact), "--autocompact", some ⟨"on", ⟨1, 0, 2⟩⟩⟩], none⟩ :=
    Table.read_eq_of_streamWithin (n := 2) (by rfl)
  unfold readGuestLine
  rw [hstream, hstream', hrest]
  exact ⟨_, _, _, by decide, rfl, rfl, rfl, rfl⟩

end VmControl
