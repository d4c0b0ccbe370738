import VmControl.Proofs.Draft.Switch

/-!
# The outline of a selection

Whether a line that changes a guest is accepted hardly depends on which device is selected.  It
counts that there is one, of which class it is, and whether the selector names an interface; and if
the line gives a position without an interface, it counts whether the device is new.  All this is
the outline of a selection.  It is kept by everything that options and the end of the line do.

## Main definitions

* `Draft.outline`: the draft with the outline of its selection only.
* `Draft.Kindred`: whether two stages differ in their selections only, and these have one outline.
* `Device.isPlaced`: whether a device has a position and no interface.

## Main statements

* `Record.consistent_outline`: a record is consistent exactly if its outline is.
* `Draft.isSome_conclude_outline`: a line ends well exactly if it does with the outline of its
  selection.
* `Draft.takeAll_kindred`: options are taken alike where only the outline is the same.
-/

namespace VmControl

open Options

/-- What is to be done to the device, of which only is told that it is something.  The fine outline
tells new devices from others. -/
def DeviceCommand.outline (fine : Bool) (c : DeviceCommand) : DeviceCommand :=
  if fine && c == .add then .add else .set

@[simp] theorem DeviceCommand.outline_outline (fine : Bool) (c : DeviceCommand) :
    (c.outline fine).outline fine = c.outline fine := by
  cases fine <;> cases c <;> rfl

@[simp] theorem DeviceCommand.outline_set (fine : Bool) :
    DeviceCommand.set.outline fine = .set := by
  cases fine <;> rfl

/-- The adapter without the name of its interface, of which only is told that it has one. -/
def Adapter.outline (a : Adapter) : Adapter := { a with ifName := a.ifName.map fun _ => "" }

@[simp] theorem Adapter.outline_outline (a : Adapter) : a.outline.outline = a.outline := by
  simp [Adapter.outline, Function.comp_def]

@[simp] theorem Adapter.isUpdated_outline (a : Adapter) : a.outline.isUpdated = a.isUpdated := by
  simp [Adapter.isUpdated, Adapter.outline]

namespace Device

/-- The device without its name and that of its interface. -/
def outline (fine : Bool) (d : Device) : Device :=
  { d with
    command := d.command.map (·.outline fine)
    name := none
    adapter := d.adapter.outline }

@[simp] theorem outline_outline (fine : Bool) (d : Device) :
    (d.outline fine).outline fine = d.outline fine := by
  simp [outline, Function.comp_def]

/-- Whether the device has a position and no interface, which a new one must not. -/
def isPlaced (d : Device) : Bool := d.settings.has .position && !d.hasText .interface

end Device

/-! ## What the rules see -/

namespace Record

variable {host : Host} {fine : Bool} {r : Record}

/-- The record with the outline of its selection only. -/
def outline (fine : Bool) (r : Record) : Record := { r with device := r.device.outline fine }

@[simp] theorem outline_outline (fine : Bool) (r : Record) :
    (r.outline fine).outline fine = r.outline fine := by
  simp [outline]

theorem earlyRules_outline (fine : Bool) (r : Record) :
    (r.outline fine).earlyRules = r.earlyRules :=
  rfl

theorem isSome_command_outline (fine : Bool) (r : Record) :
    (r.outline fine).device.command.isSome = r.device.command.isSome :=
  Option.isSome_map

theorem command_outline_eq_add (r : Record) :
    ((r.outline true).device.command == some .add) = (r.device.command == some .add) := by
  show (r.device.command.map (·.outline true) == some .add) = _
  rcases r.device.command with _ | c
  · rfl
  · cases c <;> rfl

/-- A rule asks for an interface if there is a position. -/
theorem positionRule_outline (h : fine = true ∨ r.device.isPlaced = false) (b : Bool) :
    (((r.outline fine).device.command == some .add || b) && r.device.isPlaced) =
      ((r.device.command == some .add || b) && r.device.isPlaced) := by
  rcases h with rfl | h
  · rw [command_outline_eq_add]
  · rw [h, Bool.and_false, Bool.and_false]

/-- The rules do not see more of a selection than its outline. -/
theorem lateRules_outline (h : fine = true ∨ r.device.isPlaced = false) :
    (r.outline fine).lateRules = r.lateRules := by
  have hsome := r.isSome_command_outline fine
  have hnone : (r.outline fine).device.command.isNone = r.device.command.isNone := by
    rw [← Option.not_isSome, hsome, Option.not_isSome]
  have hadapter : (r.outline fine).device.adapter.isUpdated = r.device.adapter.isUpdated :=
    r.device.adapter.isUpdated_outline
  have huse : (r.outline fine).deviceUseRules = r.deviceUseRules := by
    simp only [deviceUseRules, hnone, hadapter]
    rfl
  have hbackup : (r.outline fine).backupRules = r.backupRules := by
    have hposition := positionRule_outline h (r.backupCommand == some .add)
    unfold Device.isPlaced at hposition
    simp only [backupRules, hsome]
    exact congrArg _ (congrArg _ (congrArg _ (congrArg (fun b => [Rule.mk _ b]) hposition)))
  unfold lateRules
  rw [huse, hbackup]
  rfl

/-! ### Paths -/

theorem resolveLocation_outline (fine : Bool) (r : Record) :
    resolveLocation host (r.outline fine) =
      (resolveLocation host r).map (·.outline fine) := by
  have htext : (r.outline fine).text? .location = r.text? .location := rfl
  have hremote : (r.outline fine).login.isRemote = r.login.isRemote := rfl
  unfold resolveLocation
  rw [htext, hremote]
  cases r.text? .location with
  | none => rfl
  | some path =>
    dsimp only
    cases resolvePath host r.login.isRemote path <;> rfl

theorem resolveImage_outline (fine : Bool) (r : Record) :
    resolveImage host (r.outline fine) = (resolveImage host r).map (·.outline fine) := by
  have htext : (r.outline fine).device.text? .image = r.device.text? .image := rfl
  have hremote : (r.outline fine).login.isRemote = r.login.isRemote := rfl
  unfold resolveImage
  rw [htext, hremote]
  cases r.device.text? .image with
  | none => rfl
  | some path =>
    dsimp only
    cases resolvePath host r.login.isRemote path <;> rfl

theorem isPlaced_of_changesOnly {fields : List Field} {r r' : Record}
    (h : ChangesOnly fields r r') (hposition : .device (.setting .position) ∉ fields)
    (hinterface : .device (.setting (.text .interface)) ∉ fields) :
    r'.device.isPlaced = r.device.isPlaced := by
  have hposition : r'.device.settings.get? .position = r.device.settings.get? .position :=
    h _ hposition
  have hinterface : r'.device.settings.get? (.text .interface) =
      r.device.settings.get? (.text .interface) := h _ hinterface
  simp only [Device.isPlaced, Sheet.has, Device.hasText, Device.text?, hposition, hinterface]

theorem isPlaced_of_resolveLocation {r' : Record} (h : resolveLocation host r = .ok r') :
    r'.device.isPlaced = r.device.isPlaced := by
  rcases resolveLocation_cases h with rfl | ⟨full, rfl⟩ <;> rfl

theorem isPlaced_of_resolveImage {r' : Record} (h : resolveImage host r = .ok r') :
    r'.device.isPlaced = r.device.isPlaced := by
  rcases resolveImage_cases h with rfl | ⟨full, rfl⟩
  · rfl
  · exact isPlaced_of_changesOnly (r.changesOnly_deviceSet (.text .image) full) (by decide)
      (by decide)

theorem bind_map_outline {x : Except CommandError Record}
    {f : Record → Except CommandError Record}
    (h : ∀ r, x = .ok r → f (r.outline fine) = (f r).map (·.outline fine)) :
    (x.map (·.outline fine) >>= f) = (x >>= f).map (·.outline fine) := by
  cases x with
  | error u => rfl
  | ok r => exact h r rfl

/-- **A record is consistent exactly if its outline is.** -/
theorem consistent_outline (h : fine = true ∨ r.device.isPlaced = false) :
    consistent host (r.outline fine) = (consistent host r).map (·.outline fine) := by
  unfold consistent
  rw [earlyRules_outline, resolveLocation_outline]
  cases Rule.enforce r.earlyRules with
  | error u => rfl
  | ok _ =>
    refine bind_map_outline (f := fun r => do
      let r ← resolveImage host r
      Rule.enforce r.lateRules
      return r) fun r₁ h₁ => ?_
    rw [resolveImage_outline]
    refine bind_map_outline (f := fun r => do
      Rule.enforce r.lateRules
      return r) fun r₂ h₂ => ?_
    have hplaced : r₂.device.isPlaced = r.device.isPlaced :=
      (isPlaced_of_resolveImage h₂).trans (isPlaced_of_resolveLocation h₁)
    rw [lateRules_outline (by rwa [hplaced])]
    cases Rule.enforce r₂.lateRules <;> rfl

end Record

/-! ## The end of the line -/

namespace Draft

variable {host : Host} {fine : Bool} {s t : Stage}

/-- The draft with the outline of its selection only. -/
def outline (fine : Bool) (d : Draft) : Draft :=
  { d with record := d.record.outline fine, adapter := d.adapter.outline }

theorem settleImageFate_outline (fine : Bool) (d : Draft) :
    (d.outline fine).settleImageFate = d.settleImageFate.map (·.outline fine) := by
  obtain ⟨r, adapter, fates⟩ := d
  cases fates with
  | nil => rfl
  | cons fate fates =>
    unfold settleImageFate outline
    dsimp only
    split <;> rfl

theorem settleDisk_outline (fine : Bool) (r : Record) :
    settleDisk (r.outline fine) = (settleDisk r).outline fine := by
  have hkind : (r.outline fine).device.kind = r.device.kind := rfl
  unfold settleDisk
  rw [hkind]
  split <;> rfl

theorem outline_settleSize (fine : Bool) (r : Record) :
    (settleSize (r.outline fine)).outline fine = (settleSize r).outline fine := by
  have hsettings : (r.outline fine).device.settings = r.device.settings := rfl
  have hkind : (r.outline fine).device.kind = r.device.kind := rfl
  unfold settleSize
  rw [hsettings, hkind]
  split
  · simp [Record.outline, Device.outline]
  · exact r.outline_outline fine

theorem outline_settleAdapter (fine : Bool) (d : Draft) :
    (d.outline fine).settleAdapter.outline fine = d.settleAdapter.outline fine := by
  have hkind : (d.outline fine).record.device.kind = d.record.device.kind := rfl
  have hadapter : (d.outline fine).adapter = d.adapter.outline := rfl
  have hunnamed : { d.adapter.outline with searchDomains := [], nameServers := [] } =
      ({ d.adapter with searchDomains := [], nameServers := [] } : Adapter).outline := rfl
  unfold settleAdapter
  dsimp only
  rw [hkind, hadapter, hunnamed]
  cases d.record.device.kind == some .net with
  | true =>
    simp only [if_true, Adapter.isUpdated_outline, hkind]
    split <;> simp [outline, Record.outline, Device.outline, Function.comp_def]
  | false =>
    simp only [Bool.false_eq_true, if_false, Adapter.isUpdated_outline, hkind]
    split <;> simp [outline, Record.outline, Device.outline, Adapter.outline, Function.comp_def]

/-- The steps that move settings to the device keep the outline. -/
theorem outline_settled (fine : Bool) (d : Draft) :
    ((d.outline fine).mapRecord (settleSize ∘ settleDisk)).settleAdapter.outline fine =
      (d.mapRecord (settleSize ∘ settleDisk)).settleAdapter.outline fine := by
  have hrecord : (settleSize (settleDisk (d.record.outline fine))).outline fine =
      (settleSize (settleDisk d.record)).outline fine := by
    rw [settleDisk_outline, outline_settleSize]
  have hsettled : ((d.outline fine).mapRecord (settleSize ∘ settleDisk)).outline fine =
      (d.mapRecord (settleSize ∘ settleDisk)).outline fine := by
    simp only [outline, mapRecord, Function.comp_apply, hrecord, Adapter.outline_outline]
  rw [← outline_settleAdapter, hsettled, outline_settleAdapter]

/-- So does the end of the line. -/
theorem finish_outline (fine : Bool) (d : Draft) :
    (d.outline fine).finish.map (·.outline fine) = d.finish.map (·.outline fine) := by
  unfold finish
  rw [settleImageFate_outline]
  cases d.settleImageFate with
  | error u => rfl
  | ok d' => exact congrArg Except.ok (outline_settled fine d')

theorem isPlaced_of_finish {d : Draft} {r : Record} (h : d.finish = .ok r) :
    r.device.isPlaced = d.record.device.isPlaced :=
  Record.isPlaced_of_changesOnly (r := d.whole) (changesOnly_finish h) (by decide) (by decide)

/-- **A line ends well exactly if it does with the outline of its selection.** -/
theorem isSome_conclude_outline (h : fine = true ∨ s.1.record.device.isPlaced = false) :
    (conclude host (s.1.outline fine, s.2)).isSome = (conclude host s).isSome := by
  have hsome {r : Record} (hr : r.device.isPlaced = s.1.record.device.isPlaced) :
      ((r.outline fine).consistent host).toOption.isSome = (r.consistent host).toOption.isSome := by
    rw [Record.consistent_outline (by rwa [hr])]
    cases r.consistent host <;> rfl
  have hfinish := finish_outline fine s.1
  unfold conclude
  rw [Option.isSome_map, Option.isSome_map]
  cases hr : s.1.finish with
  | error u =>
    cases hr' : (s.1.outline fine).finish with
    | error u' => rfl
    | ok r' =>
      rw [hr, hr'] at hfinish
      cases hfinish
  | ok r =>
    cases hr' : (s.1.outline fine).finish with
    | error u' =>
      rw [hr, hr'] at hfinish
      cases hfinish
    | ok r' =>
      rw [hr, hr'] at hfinish
      have houtline : r'.outline fine = r.outline fine := Except.ok.inj hfinish
      calc ((r'.consistent host).toOption).isSome
          = ((r'.outline fine).consistent host).toOption.isSome :=
            (hsome (isPlaced_of_finish (d := s.1.outline fine) hr')).symm
        _ = ((r.outline fine).consistent host).toOption.isSome := by rw [houtline]
        _ = (r.consistent host).toOption.isSome := hsome (isPlaced_of_finish hr)

/-! ## Stages with selections of one outline -/

/-- The outline of what is selected. -/
def outlineSelection (fine : Bool) (c : Part.selection.Content) : Part.selection.Content :=
  (c.1.map (·.outline fine), c.2.1, none, c.2.2.2.map fun _ => "")

/-- Whether stages differ in their selections only, and these have one outline. -/
structure Kindred (fine : Bool) (s t : Stage) : Prop where
  /-- All else is the same. -/
  others : ∀ p, p ≠ .selection → view s p = view t p
  /-- The selections have one outline. -/
  selection : outlineSelection fine (view s .selection) = outlineSelection fine (view t .selection)

theorem view_outline_of_kindred (h : Kindred fine s t) :
    view (s.1.outline fine, s.2) = view (t.1.outline fine, t.2) := by
  funext p
  have hother (s : Stage) (hp : p ≠ .selection) (hrest : p ≠ .rest) :
      view (s.1.outline fine, s.2) p = view s p := by
    cases p <;> first | rfl | exact absurd rfl hp | exact absurd rfl hrest
  by_cases hp : p = .selection
  · subst hp
    exact h.selection
  · by_cases hrest : p = .rest
    · subst hrest
      exact congrArg (Record.outline fine) (h.others .rest hp)
    · rw [hother s hp hrest, hother t hp hrest, h.others p hp]

theorem isPlaced_of_kindred (h : Kindred fine s t) :
    s.1.record.device.isPlaced = t.1.record.device.isPlaced := by
  have hposition : s.1.record.device.settings.get? .position =
      t.1.record.device.settings.get? .position := h.others (.device .position) (by simp)
  have hinterface : s.1.record.device.hasText .interface = t.1.record.device.hasText .interface :=
    hasText_congr (h.others (.device (.text .interface)) (by simp))
  simp only [Device.isPlaced, Sheet.has, hposition, hinterface]

/-- The end of the line sees no difference. -/
theorem isSome_conclude_of_kindred (h : Kindred fine s t)
    (hplaced : fine = true ∨ s.1.record.device.isPlaced = false) :
    (conclude host s).isSome = (conclude host t).isSome := by
  have hplaced' : fine = true ∨ t.1.record.device.isPlaced = false := by
    rwa [← isPlaced_of_kindred h]
  rw [← isSome_conclude_outline hplaced, ← isSome_conclude_outline hplaced',
    conclude_congr (view_outline_of_kindred h)]

/-- **Which selectors are taken**: one for a new device or one to be changed only if no device is
selected yet, and each only if the class of the device is known, should it tell the class. -/
theorem isSome_take_selector {m : Match OptionId} {k : Selector} (hid : m.id = .selector k) :
    (take host s m).isSome = true ↔
      (m.id.isAddOrSet = true → s.1.record.device.command = none) ∧
        (k.kind? m.text).isSome = k.fixesKind := by
  obtain ⟨d, q⟩ := s
  rw [hid]
  simp only [take, hid, applyPure]
  cases k
  case add =>
    cases hkind : DeviceKind.read? m.text <;>
      simp [conflict?, select, Selector.kind?, Selector.fixesKind, OptionId.isAddOrSet, hkind,
        Except.toOption]
  case set =>
    cases hkind : kindOfName? (deviceName m.text) <;>
      simp [conflict?, select, Selector.kind?, Selector.fixesKind, OptionId.isAddOrSet, hkind,
        Except.toOption]
  all_goals
    simp [conflict?, select, Selector.kind?, Selector.fixesKind, OptionId.isAddOrSet,
      Except.toOption]

theorem outlineSelection_enterSelection {c c' : Part.selection.Content}
    (h : outlineSelection fine c = outlineSelection fine c') (fine' : Bool)
    (x : Selector × String) : outlineSelection fine' (enterSelection c x) =
      outlineSelection fine' (enterSelection c' x) := by
  obtain ⟨command, kind, name, ifName⟩ := c
  obtain ⟨command', kind', name', ifName'⟩ := c'
  simp only [outlineSelection, Prod.mk.injEq, true_and] at h
  obtain ⟨-, rfl, hifName⟩ := h
  simp only [outlineSelection, enterSelection]
  cases x.1.ifName? x.2 <;> simp [hifName]

theorem take_kindred_of_selector {m : Match OptionId} {k : Selector} (hid : m.id = .selector k)
    (h : Kindred fine s t) (fine' : Bool) :
    Option.Rel (Kindred fine') (take host s m) (take host t m) := by
  have hcommand : s.1.record.device.command = none ↔ t.1.record.device.command = none := by
    have hsame : s.1.record.device.command.isNone = t.1.record.device.command.isNone := by
      simpa [outlineSelection, view] using congrArg (fun c => c.1.isNone) h.selection
    rw [← Option.isNone_iff_eq_none, ← Option.isNone_iff_eq_none, hsame]
  have hsome : (take host s m).isSome = true ↔ (take host t m).isSome = true := by
    rw [isSome_take_selector hid, isSome_take_selector hid, hcommand]
  cases hs : take host s m with
  | none =>
    cases ht : take host t m with
    | none => exact .none
    | some t' => simp [hs, ht] at hsome
  | some s' =>
    cases ht : take host t m with
    | none => simp [hs, ht] at hsome
    | some t' =>
      have hpart : part? m.id = some .selection := by rw [hid]; rfl
      refine .some ⟨fun p hp => ?_, ?_⟩
      · have hne : part? m.id ≠ some p := by
          rw [hpart]
          exact fun h => hp (Option.some.inj h).symm
        rw [view_take_of_ne hs hne, view_take_of_ne ht hne, h.others p hp]
      · rw [(take_selector hid hs).2, (take_selector hid ht).2]
        exact outlineSelection_enterSelection h.selection fine' _

/-- No option but a selector looks at the selection. -/
theorem not_reads_selection {id : OptionId} (h : part? id ≠ some .selection) :
    ¬ Reads id .selection := by
  rintro (hpart | hwatched)
  · exact h hpart
  · unfold watched at hwatched
    split at hwatched <;> simp at hwatched

theorem take_kindred (h : Kindred fine s t) (m : Match OptionId) :
    Option.Rel (Kindred fine) (take host s m) (take host t m) := by
  by_cases hpart : part? m.id = some .selection
  · obtain ⟨k, hk⟩ := exists_selector hpart
    exact take_kindred_of_selector hk h fine
  · have hcongr := @take_congr host m s t fun p hp =>
      h.others p fun hsel => not_reads_selection hpart (hsel ▸ hp)
    generalize hs : take host s m = x at hcongr
    generalize ht : take host t m = y at hcongr
    cases hcongr with
    | none => exact .none
    | some hown =>
      refine .some ⟨fun p hp => ?_, ?_⟩
      · by_cases hpp : part? m.id = some p
        · exact hown p hpp
        · rw [view_take_of_ne hs hpp, view_take_of_ne ht hpp, h.others p hp]
      · rw [view_take_of_ne hs hpart, view_take_of_ne ht hpart]
        exact h.selection

/-- **Options are taken alike where only the outline of the selection is the same**, and the next
selector tells whether the device is new. -/
theorem takeAll_kindred {fine' : Bool} (h : Kindred fine s t) (os : List (Occurrence OptionId))
    (hfine : fine' = fine ∨ ∃ o ∈ os, ∃ k, o.id = .selector k) :
    Option.Rel (Kindred fine') (takeAll host s os) (takeAll host t os) := by
  induction os generalizing s t fine with
  | nil =>
    obtain rfl := hfine.resolve_right (by simp)
    exact .some h
  | cons o os ih =>
    by_cases hselector : ∃ k, o.id = .selector k
    · obtain ⟨k, hk⟩ := hselector
      exact rel_option_bind (take_kindred_of_selector hk h fine') fun _ _ h => ih h (.inl rfl)
    · refine rel_option_bind (take_kindred h o.toMatch) fun _ _ h => ih h (hfine.imp_right ?_)
      rintro ⟨o', ho', hk⟩
      rcases List.mem_cons.1 ho' with rfl | ho'
      · exact absurd hk hselector
      · exact ⟨o', ho', hk⟩

/-! ## Selectors that trade places -/

section Free

variable {k k' : Selector} (h : (OptionId.selector k).isAddOrSet = false)
include h

/-- Selectors that are taken whatever is selected know the class of the device, if they tell it. -/
theorem isSome_kind?_of_not_isAddOrSet (value : String) : (k.kind? value).isSome = k.fixesKind := by
  cases k <;> first | exact absurd h (by decide) | rfl

theorem kind?_of_not_isAddOrSet (value : String) :
    k.kind? value = none ∨ k.kind? value = some .net := by
  cases k <;> first | exact absurd h (by decide) | exact .inl rfl | exact .inr rfl

/-- One of them is for a new device. -/
theorem command_eq_add_iff : k.command = .add ↔ k = .addAdapter := by
  cases k <;> first | decide | exact absurd h (by decide)

/-- Selectors that trade places leave one outline, unless just one of them adds an adapter. -/
theorem outlineSelection_swap (h' : (OptionId.selector k').isAddOrSet = false)
    (hfine : fine = false ∨ (k = .addAdapter ↔ k' = .addAdapter))
    (c : Part.selection.Content) (value value' : String) :
    outlineSelection fine (enterSelection (enterSelection c (k, value)) (k', value')) =
      outlineSelection fine (enterSelection (enterSelection c (k', value')) (k, value)) := by
  have hcommand : k'.command.outline fine = k.command.outline fine := by
    rcases hfine with rfl | hsame
    · rfl
    · have hadd : k'.command = .add ↔ k.command = .add := by
        rw [command_eq_add_iff h', command_eq_add_iff h, hsame]
      by_cases hk : k.command = .add
      · rw [hk, hadd.2 hk]
      · simp [DeviceCommand.outline, hk, mt hadd.1 hk]
  have hkind : (k'.kind? value').or ((k.kind? value).or c.2.1) =
      (k.kind? value).or ((k'.kind? value').or c.2.1) := by
    rcases kind?_of_not_isAddOrSet h value with hk | hk <;>
      rcases kind?_of_not_isAddOrSet h' value' with hk' | hk' <;> rw [hk, hk'] <;> rfl
  have hifName : ((k'.ifName? value').or ((k.ifName? value).or c.2.2.2)).map (fun _ => "") =
      ((k.ifName? value).or ((k'.ifName? value').or c.2.2.2)).map fun _ => "" := by
    cases k.ifName? value <;> cases k'.ifName? value' <;> rfl
  simp only [outlineSelection, enterSelection, Option.map_some, hcommand, hkind, hifName]

end Free

/-- Two selectors that are taken whatever is selected can trade places. -/
theorem take_swap_selectors {m n : Match OptionId} {k k' : Selector} (hm : m.id = .selector k)
    (hn : n.id = .selector k') (h : m.id.isAddOrSet = false) (h' : n.id.isAddOrSet = false)
    (hfine : fine = false ∨ (k = .addAdapter ↔ k' = .addAdapter)) (s : Stage) :
    Option.Rel (Kindred fine) ((take host s m).bind (take host · n))
      ((take host s n).bind (take host · m)) := by
  have taken {m : Match OptionId} {k : Selector} (hm : m.id = .selector k)
      (h : m.id.isAddOrSet = false) (s : Stage) : ∃ s', take host s m = some s' :=
    Option.isSome_iff_exists.1 ((isSome_take_selector hm).2
      ⟨by simp [h], isSome_kind?_of_not_isAddOrSet (hm ▸ h) _⟩)
  have hpart {m : Match OptionId} {k : Selector} (hm : m.id = .selector k) {p : Part}
      (hp : p ≠ .selection) : part? m.id ≠ some p := by
    rw [hm]
    exact fun h => hp (Option.some.inj h).symm
  obtain ⟨s₁, hs₁⟩ := taken hm h s
  obtain ⟨s₂, hs₂⟩ := taken hn h' s₁
  obtain ⟨t₁, ht₁⟩ := taken hn h' s
  obtain ⟨t₂, ht₂⟩ := taken hm h t₁
  rw [hs₁, ht₁, Option.bind_some, Option.bind_some, hs₂, ht₂]
  refine .some ⟨fun p hp => ?_, ?_⟩
  · rw [view_take_of_ne hs₂ (hpart hn hp), view_take_of_ne hs₁ (hpart hm hp),
      view_take_of_ne ht₂ (hpart hm hp), view_take_of_ne ht₁ (hpart hn hp)]
  · rw [(take_selector hn hs₂).2, (take_selector hm hs₁).2, (take_selector hm ht₂).2,
      (take_selector hn ht₁).2]
    exact outlineSelection_swap (hm ▸ h) (hn ▸ h') hfine ..

end Draft

end VmControl
