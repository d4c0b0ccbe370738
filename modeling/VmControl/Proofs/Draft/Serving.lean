import VmControl.Proofs.Draft.Footprint
import VmControl.Proofs.Line.Handling

/-!
# The fields that an option of a guest line writes

The settings of an adapter and the fates of images are kept apart from the record while a line about
a guest is read.  Here a draft is looked at as the record that it amounts to, so that its options
write fields of a record like all others do; what the end of the line moves between fields is told
apart.

## Main definitions

* `Draft.whole`: the record that a draft amounts to.
* `Draft.fields?`: the fields that an option writes.

## Main statements

* `Draft.handles_grammar`: the options of a line about a guest write their fields.
* `Draft.changesOnly_finish`: the end of the line moves settings to the device, and to the guest.
-/

namespace VmControl

open Numeral Options
open Record (ChangesOnly Field)

/-- The fields of the device that a selection writes. -/
def Selector.fields : Selector → List Device.Field
  | .add => [.command, .kind]
  | .addAdapter => [.command, .kind, .adapter .ifName]
  | .set => [.command, .kind, .name]
  | .setAdapter => [.command, .kind, .name, .adapter .ifName]
  | .delete => [.command, .name]
  | .deleteAdapter => [.command, .kind, .name]
  | .connect => [.command, .name]
  | .disconnect => [.command, .name]
  | .bootOrder => [.command, .name]

/-- What an argument of a line about a guest is taken for, by what the line is for. -/
def Action.argumentFields : Action → List Field
  | .list => [.target]
  | .register => [.setting (.text .location)]
  | _ => []

/-- The record with other settings of the adapter of its device. -/
def Record.withAdapter (r : Record) (a : Adapter) : Record :=
  { r with device := { r.device with adapter := a } }

/-- The adapter can be put into the device before or after a change. -/
theorem Record.ChangesOnly.withAdapter {r r' : Record} {fields : List Field}
    (h : ChangesOnly fields r r') (a : Adapter) :
    ChangesOnly fields (r.withAdapter a) (r'.withAdapter a) := by
  intro f hf
  have hget := h f hf
  cases f with
  | device f =>
    cases f with
    | adapter f => rfl
    | _ => exact hget
  | _ => exact hget

namespace Draft

/-- The record that a draft amounts to: its adapter is that of its device, and the first fate of
images is what becomes of them. -/
def whole (d : Draft) : Record :=
  { d.record with imageFate := d.imageFates.headD d.record.imageFate }.withAdapter d.adapter

/-- The fields that an option of guests writes. -/
def fields? : OptionId → Option (List Field)
  | .help => some []
  | .setting s => some [.setting s]
  | .osType => some [.guest]
  | .distribution => some [.guest]
  | .guestKind => some [.kind]
  | .blockSize => some [.blockSize]
  | .onlineClone => some []
  | .selector k => some (k.fields.map .device)
  | .device s => some [.device (.setting s)]
  | .adapter s => some [.device (.adapter (.setting s))]
  | .imageFate _ => some [.imageFate]
  | .backupAdd => some [.backupCommand, .backupId]
  | .backupDelete => some [.backupCommand, .backupId]
  | .memoryQuota => some []
  | .swapPages => some [.resources]
  | .swap => some [.resources]
  | .quotaUgidLimit => some [.resources]
  | .capability => some [.capabilities]
  | .features => some [.features]
  | .appTemplate => some [.appTemplates]
  | .rate => some [.rates]
  | .expiration => some [.expiration]
  | .requirePassword => some [.passwordRules]
  | .offlineService => some [.offlineServices]
  | .searchDomain => some [.device (.adapter .searchDomains)]
  | .nameServer => some [.device (.adapter .nameServers)]
  | .ipSet => some [.device (.adapter .replace), .device (.adapter .addresses)]
  | .ipAdd => some [.device (.adapter .addresses)]
  | .ipDelete => some [.device (.adapter .removed), .device (.adapter .removeAll)]
  | .firewallRule => some [.device (.adapter .rules)]
  | _ => none

/-! ## Changes of drafts -/

/-- Whether a draft differs from another one in these fields at most: the record itself, and what
the draft amounts to. -/
structure Writes (fields : List Field) (d d' : Draft) : Prop where
  /-- The record itself. -/
  record : ChangesOnly fields d.record d'.record
  /-- What the draft amounts to. -/
  whole : ChangesOnly fields d.whole d'.whole

theorem Writes.refl (fields : List Field) (d : Draft) : Writes fields d d :=
  ⟨ChangesOnly.refl _ _, ChangesOnly.refl _ _⟩

/-- A change of the record changes what the draft amounts to, apart from what is kept apart. -/
theorem writes_record {d : Draft} {r : Record} {fields : List Field}
    (h : ChangesOnly fields d.record r) : Writes fields d { d with record := r } := by
  refine ⟨h, ChangesOnly.withAdapter (fun f hf => ?_) d.adapter⟩
  have hget := h f hf
  cases f with
  | imageFate =>
    obtain ⟨r, a, _ | ⟨fate, fates⟩⟩ := d
    · exact hget
    · rfl
  | _ => exact hget

/-- A change of the adapter leaves the record alone. -/
theorem writes_mapAdapter {d : Draft} {f : Adapter → Adapter} (fields : List Adapter.Field)
    (hf : ∀ g ∉ fields, (f d.adapter).get g = d.adapter.get g) :
    Writes (fields.map fun g => .device (.adapter g)) d (d.mapAdapter f) := by
  refine ⟨ChangesOnly.refl _ _, fun g hg => ?_⟩
  cases g with
  | device g =>
    cases g with
    | adapter g => exact hf g fun h => hg (List.mem_map.2 ⟨g, h, rfl⟩)
    | _ => rfl
  | _ => rfl

/-- Whether a computation of the next draft writes these fields, or fails for a value. -/
def Serves (d : Draft) (fields : List Field) (x : Except CommandError Draft) : Prop :=
  BlamesValue x ∧ ∀ d', x = .ok d' → Writes fields d d'

theorem serves_ok {d d' : Draft} {fields : List Field} (h : Writes fields d d') :
    d.Serves fields (.ok d') :=
  ⟨failsOnly_ok d', fun _ h' => by cases h'; exact h⟩

theorem serves_error {d : Draft} {fields : List Field} {u : CommandError}
    (h : u.isStray = false) : d.Serves fields (.error u) :=
  ⟨failsOnly_error.2 h, fun _ h' => by cases h'⟩

theorem serves_bind {α : Type} {d : Draft} {fields : List Field} {x : Except CommandError α}
    {f : α → Except CommandError Draft} (hx : BlamesValue x) (hf : ∀ a, d.Serves fields (f a)) :
    d.Serves fields (x >>= f) := by
  refine ⟨failsOnly_bind hx fun a => (hf a).1, fun d' hd => ?_⟩
  obtain ⟨a, -, ha⟩ := bind_eq_ok.1 hd
  exact (hf a).2 d' ha

theorem serves_map {α : Type} {d : Draft} {fields : List Field} {x : Except CommandError α}
    {f : α → Draft} (hx : BlamesValue x) (hf : ∀ a, Writes fields d (f a)) :
    d.Serves fields (x.map f) := by
  refine ⟨failsOnly_map hx, fun d' hd => ?_⟩
  obtain ⟨a, -, rfl⟩ := map_eq_ok.1 hd
  exact hf a

/-! ## Options -/

theorem serves_select (d : Draft) (k : Selector) (value : String) :
    d.Serves (k.fields.map .device) (d.select k value) := by
  unfold select
  cases k <;> dsimp only
  case add | set =>
    split
    · exact serves_error rfl
    · refine serves_ok (writes_record fun g hg => ?_)
      cases g with
      | device g => cases g <;> first | rfl | exact absurd (by decide) hg
      | _ => rfl
  case addAdapter | setAdapter =>
    refine serves_ok ⟨fun g hg => ?_, fun g hg => ?_⟩ <;>
      cases g with
      | device g =>
        cases g with
        | adapter g => cases g <;> first | rfl | exact absurd (by decide) hg
        | _ => first | rfl | exact absurd (by decide) hg
      | _ => rfl
  all_goals
    refine serves_ok (writes_record fun g hg => ?_)
    cases g with
    | device g => cases g <;> first | rfl | exact absurd (by decide) hg
    | _ => rfl

/-- **An option that does nothing but enter its value writes its fields**, or its value is turned
down. -/
theorem serves_applyPure {m : Match OptionId} {d : Draft} {fields : List Field}
    (h : fields? m.id = some fields)
    (hpure : m.id ∉ [.help, .osType, .distribution, .blockSize]) :
    d.Serves fields (d.applyPure m) := by
  unfold fields? at h
  split at h <;> cases h
  case h_1 hid | h_3 hid | h_4 hid | h_6 hid => exact absurd (by rw [hid]; decide) hpure
  case h_2 s hid =>
    simp only [applyPure, hid]
    exact serves_bind (s.blamesValue_read _ _) fun v =>
      serves_ok (writes_record (d.record.changesOnly_set s v))
  case h_5 hid =>
    simp only [applyPure, hid]
    refine serves_bind (Setting.refusesValue_choose _ _ _).blames fun kind =>
      serves_ok (writes_record fun g hg => ?_)
    cases g <;> first | rfl | exact absurd (by decide) hg
  case h_7 hid =>
    simp only [applyPure, hid]
    exact serves_ok (Writes.refl _ _)
  case h_8 k hid =>
    simp only [applyPure, hid]
    exact serves_select d k m.text
  case h_9 s hid =>
    simp only [applyPure, hid]
    exact serves_bind (s.refusesValue_read _ _).blames fun v =>
      serves_ok (writes_record (d.record.changesOnly_deviceSet s v))
  case h_10 s hid =>
    simp only [applyPure, hid]
    refine serves_bind (s.refusesValue_read _ _).blames fun v =>
      serves_ok (writes_mapAdapter [.setting s] fun g hg => ?_)
    cases g with
    | setting s' => exact Sheet.get?_insert_of_ne _ _ fun h => hg (h ▸ List.mem_singleton.2 rfl)
    | _ => rfl
  case h_11 fate hid =>
    simp only [applyPure, hid]
    refine serves_ok ⟨ChangesOnly.refl _ _, fun g hg => ?_⟩
    cases g <;> first | rfl | exact absurd (by decide) hg
  case h_14 hid =>
    simp only [applyPure, hid]
    exact serves_error rfl
  case h_12 hid | h_13 hid | h_20 hid | h_24 hid =>
    simp only [applyPure, hid]
    refine serves_ok (writes_record fun g hg => ?_)
    cases g <;> first | rfl | exact absurd (by decide) hg
  case h_15 hid | h_16 hid | h_17 hid =>
    simp only [applyPure, hid]
    refine serves_bind (ResourceLimit.refusesValue_choose _ _ _ _).blames fun limit =>
      serves_ok (writes_record fun g hg => ?_)
    cases g <;> first | rfl | exact absurd (by decide) hg
  case h_18 hid =>
    simp only [applyPure, hid]
    refine serves_map (CapabilityMask.refusesValue_applyItems _ _ _).blames fun _ =>
      writes_record fun g hg => ?_
    cases g <;> first | rfl | exact absurd (by decide) hg
  case h_19 hid =>
    simp only [applyPure, hid]
    refine serves_map (Features.refusesValue_applyItems _ _).blames fun _ =>
      writes_record fun g hg => ?_
    cases g <;> first | rfl | exact absurd (by decide) hg
  case h_21 hid =>
    simp only [applyPure, hid]
    refine serves_bind (Setting.refusesValue_choose _ _ _).blames fun rate =>
      serves_ok (writes_record fun g hg => ?_)
    cases g <;> first | rfl | exact absurd (by decide) hg
  case h_22 hid =>
    simp only [applyPure, hid]
    refine serves_bind (Expiration.refusesValue_apply _ _).blames fun expiration =>
      serves_ok (writes_record fun g hg => ?_)
    cases g <;> first | rfl | exact absurd (by decide) hg
  case h_23 hid =>
    simp only [applyPure, hid]
    refine serves_bind (PasswordRules.refusesValue_read _ _ _).blames fun rule =>
      serves_ok (writes_record fun g hg => ?_)
    cases g <;> first | rfl | exact absurd (by decide) hg
  case h_25 hid =>
    simp only [applyPure, hid]
    refine serves_ok (writes_mapAdapter [.searchDomains] fun g hg => ?_)
    cases g <;> first | rfl | exact absurd (by decide) hg
  case h_26 hid =>
    simp only [applyPure, hid]
    refine serves_ok (writes_mapAdapter [.nameServers] fun g hg => ?_)
    cases g <;> first | rfl | exact absurd (by decide) hg
  case h_27 hid =>
    simp only [applyPure, hid]
    refine serves_ok (writes_mapAdapter [.replace, .addresses] fun g hg => ?_)
    cases g <;> first | rfl | exact absurd (by decide) hg
  case h_28 hid =>
    simp only [applyPure, hid]
    refine serves_ok (writes_mapAdapter [.addresses] fun g hg => ?_)
    cases g <;> first | rfl | exact absurd (by decide) hg
  case h_29 hid =>
    simp only [applyPure, hid]
    split <;>
      refine serves_ok (writes_mapAdapter [.removed, .removeAll] fun g hg => ?_) <;>
      cases g <;> first | rfl | exact absurd (by decide) hg
  case h_30 hid =>
    simp only [applyPure, hid]
    refine serves_bind (FirewallRule.refusesValue_read _).blames fun rule =>
      serves_ok (writes_mapAdapter [.rules] fun g hg => ?_)
    cases g <;> first | rfl | exact absurd (by decide) hg

/-- A value that shows which guest systems there are ends the line. -/
theorem ends_showGuests {option value : String} {guests : List Guest} {listed : CommandError}
    {P : Draft → Prop} (h : listed.isStray = false) :
    (showGuests option value guests listed).Ends P (·.Blames []) := by
  have hlisting (u : CommandError) (hu : u.isStray = false) :
      (do Reading.write (.output ("The following values are allowed: " ++ Guest.listing guests))
          throw u : Reading Draft).Ends P (·.Blames []) :=
    Reading.ends_write.bind fun _ _ => Reading.ends_throw (CommandError.blames_of_isStray hu _)
  unfold showGuests
  dsimp only
  split
  · refine Reading.ends_write.bind fun _ _ => hlisting _ ?_
    split
    · exact h
    · rfl
  · refine hlisting _ ?_
    split
    · exact h
    · rfl

/-- **The options of a line about a guest write their fields**, and are turned down for their values
only. -/
theorem ends_apply {m : Match OptionId} {d : Draft} {fields : List Field}
    (h : fields? m.id = some fields) :
    (apply m d).Ends (Writes fields d) (·.Blames []) := by
  have hpure (hpure : m.id ∉ [.help, .osType, .distribution, .blockSize]) :
      (Reading.ofExcept (d.applyPure m)).Ends (Writes fields d) (·.Blames []) :=
    Reading.ends_ofExcept (serves_applyPure h hpure).1 (serves_applyPure h hpure).2
  have hguest (g : Guest) : Writes [.guest] d
      (d.mapRecord fun r => { r with guest := some g }) :=
    writes_record fun f hf => by cases f <;> first | rfl | exact absurd (by decide) hf
  unfold apply
  cases hconflict : d.conflict? m.id with
  | some u =>
    have hstray : u.isStray = false :=
      CommandError.isStray_of_isRefusal (isRefusal_of_conflict? hconflict)
    have hthrow : (throw u : Reading PUnit).Ends (fun _ => False) (·.Blames []) :=
      Reading.ends_throw (CommandError.blames_of_isStray hstray _)
    exact hthrow.bind fun _ h => h.elim
  | none =>
    dsimp only
    split
    case h_1 => exact Reading.ends_throw (CommandError.blames_of_isStray rfl _)
    case h_2 hid | h_3 hid =>
      rw [hid] at h
      cases h
      split
      · exact Reading.ends_pure (hguest _)
      · exact ends_showGuests rfl
    case h_4 hid =>
      rw [hid] at h
      cases h
      split
      · exact Reading.ends_pure (writes_record fun f hf => by
          cases f <;> first | rfl | exact absurd (by decide) hf)
      · exact Reading.ends_write.bind fun _ _ => Reading.ends_pure (Writes.refl _ _)
    case h_5 s hid =>
      have hpure := hpure (by rw [hid]; simp)
      split
      · exact Reading.ends_wipe.bind fun _ _ => hpure
      · exact hpure
    case h_6 hhelp htype hdistribution hsize _ =>
      exact hpure (by simpa using ⟨hhelp, htype, hdistribution, hsize⟩)

/-- An argument is the guest of a list, or where a guest is registered. -/
theorem ends_takeArgument (index : Nat) (token : String) (d : Draft) :
    (takeArgument index token d).Ends (Writes d.record.action.argumentFields d)
      (·.Blames [.unknown index token]) := by
  unfold takeArgument
  split
  case h_1 haction =>
    rw [haction]
    exact Reading.ends_pure (writes_record (d.record.changesOnly_target _))
  case h_2 haction =>
    rw [haction]
    exact Reading.ends_pure (writes_record (d.record.changesOnly_set _ _))
  case h_3 => exact Reading.ends_throw (CommandError.blames_unrecognized index token)

/-- What a line about a guest takes writes the fields that it is for. -/
theorem handles_grammar : grammar.Handles whole fields? Action.argumentFields where
  mapLogin _ _ := rfl
  argument index token d :=
    (ends_takeArgument index token d).mono (fun _ h => h.whole) fun _ h => h
  option _ _ _ h := (ends_apply h).mono (fun _ h => h.whole) fun _ h => h

/-- So it does in the record itself, where the adapter and the fates of images have no place. -/
theorem handles_grammar_record : grammar.Handles record fields? Action.argumentFields where
  mapLogin _ _ := rfl
  argument index token d :=
    (ends_takeArgument index token d).mono (fun _ h => h.record) fun _ h => h
  option _ _ _ h := (ends_apply h).mono (fun _ h => h.record) fun _ h => h

/-! ## The end of the line -/

/-- The fields that the end of a line about a guest may write: those of the device that settings are
moved to, and those that they are moved from. -/
def movedFields : List Field :=
  [.setting (.switch .autoCompact), .device .blockSize, .device .autoCompact, .device .command,
   .device .kind, .device .name, .device (.adapter .searchDomains),
   .device (.adapter .nameServers), .searchDomains, .nameServers]

theorem changesOnly_settleDisk (r : Record) :
    ChangesOnly [.setting (.switch .autoCompact), .device .blockSize, .device .autoCompact] r
      (settleDisk r) := by
  intro f hf
  unfold settleDisk
  split
  · cases f with
    | setting s =>
      refine Sheet.get?_erase_of_ne _ fun h => hf ?_
      rw [← h]
      exact List.mem_cons_self ..
    | device f => cases f <;> first | rfl | exact absurd (by decide) hf
    | _ => rfl
  · rfl

theorem changesOnly_settleSize (r : Record) :
    ChangesOnly [.device .command, .device .kind, .device .name] r (settleSize r) := by
  intro f hf
  unfold settleSize
  split
  · cases f with
    | device f => cases f <;> first | rfl | exact absurd (by decide) hf
    | _ => rfl
  · rfl

/-- The adapter goes to the device, but its domains and name servers go to the guest if the device
is no adapter. -/
theorem changesOnly_settleAdapter (d : Draft) :
    ChangesOnly [.device .command, .device .kind, .device (.adapter .searchDomains),
      .device (.adapter .nameServers), .searchDomains, .nameServers]
      (d.record.withAdapter d.adapter) d.settleAdapter := by
  intro f hf
  unfold settleAdapter
  dsimp only
  cases f with
  | device f =>
    cases f with
    | adapter f =>
      cases f <;> first | exact absurd (by decide) hf | (split <;> split <;> rfl)
    | _ => first | exact absurd (by decide) hf | (split <;> split <;> rfl)
  | _ => first | exact absurd (by decide) hf | (split <;> rfl)

/-- What is left of a draft once the fate of images is settled. -/
theorem eq_of_settleImageFate {d d' : Draft} (h : d.settleImageFate = .ok d') :
    d' = { d with record := { d.record with imageFate := d.whole.imageFate } } := by
  unfold settleImageFate at h
  obtain ⟨r, a, _ | ⟨fate, fates⟩⟩ := d
  · cases h
    rfl
  · dsimp only at h
    split at h
    · cases h
    · cases h
      rfl

/-- What a draft ends as, in terms of the record that it amounts to. -/
theorem exists_settled_of_finish {d : Draft} {r : Record} (h : d.finish = .ok r) :
    ∃ r₁ : Record, r₁.withAdapter d.adapter = d.whole ∧
      r = { d with record := settleSize (settleDisk r₁) : Draft }.settleAdapter := by
  obtain ⟨d', hfate, hr⟩ := bind_eq_ok.1 h
  cases hr
  rw [eq_of_settleImageFate hfate]
  exact ⟨{ d.record with imageFate := d.whole.imageFate }, rfl, rfl⟩

/-- **The end of the line moves settings to the device**, and to the guest. -/
theorem changesOnly_finish {d : Draft} {r : Record} (h : d.finish = .ok r) :
    ChangesOnly movedFields d.whole r := by
  obtain ⟨r₁, hwhole, rfl⟩ := exists_settled_of_finish h
  have hdisk : ChangesOnly movedFields r₁ (settleDisk r₁) :=
    (changesOnly_settleDisk r₁).mono (by decide)
  have hsize : ChangesOnly movedFields (settleDisk r₁) (settleSize (settleDisk r₁)) :=
    (changesOnly_settleSize _).mono (by decide)
  have hadapter := changesOnly_settleAdapter { d with record := settleSize (settleDisk r₁) }
  rw [← hwhole]
  exact ((hdisk.trans hsize).withAdapter d.adapter).trans (hadapter.mono (by decide))

/-- **Where nothing is said of a device, the end of the line moves nothing.** -/
theorem eq_whole_of_finish {d : Draft} {r : Record} (h : d.finish = .ok r)
    (hdevice : d.whole.device = ∅) (hdomains : d.whole.searchDomains = [])
    (hservers : d.whole.nameServers = []) : r = d.whole := by
  obtain ⟨r₁, hwhole, rfl⟩ := exists_settled_of_finish h
  rw [← hwhole] at hdevice hdomains hservers ⊢
  have hkind : r₁.device.kind = none := congrArg Device.kind hdevice
  have hsettings : r₁.device.settings = ∅ := congrArg Device.settings hdevice
  have hadapter : d.adapter = ∅ := congrArg Device.adapter hdevice
  have hdisk : settleDisk r₁ = r₁ := by
    unfold settleDisk
    rw [hkind]
    rfl
  have hsize : settleSize r₁ = r₁ := by
    unfold settleSize
    rw [hsettings]
    rfl
  rw [hdisk, hsize]
  unfold settleAdapter
  dsimp only
  rw [hkind, hadapter]
  refine Record.ext_get fun f => ?_
  cases f with
  | searchDomains => exact hdomains.symm
  | nameServers => exact hservers.symm
  | _ => rfl

end Draft

end VmControl
