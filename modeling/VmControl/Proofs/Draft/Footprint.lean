import Mathlib.Data.Multiset.Basic
import VmControl.Line.Guest

/-!
# What an option of a guest line touches

Reading the options of a guest line changes a draft and the preferences.  Both fall into parts, and
an option changes one part only.  What it makes of that part, and whether it is taken at all,
depends on that part and on the few others that it watches for options that exclude it.

## Main statements

* `Draft.outcome_step`: reading an option is taking it.
* `Draft.view_take_of_ne`: an option leaves all parts alone but its own.
* `Draft.setting_of_take`, `Draft.deviceSetting_of_take`, `Draft.adapterSetting_of_take`: an option
  for a setting enters its value.
* `Draft.take_congr`: what an option does depends on the parts that it reads.
* `Draft.exists_of_finish`: what the end of the line changes.
-/

namespace VmControl

open Numeral Options Text

/-- What a reading comes to if it succeeds: its result and the preferences that it leaves. -/
def Reading.outcome {α : Type} (x : Reading α) (host : Host) (e : Effects) :
    Option (α × Preferences) :=
  match x.after host e with
  | (.ok a, e) => some (a, e.preferences)
  | (.error _, _) => none

/-- A continuation that looks at nothing but the preferences continues from the outcome. -/
theorem Reading.outcome_bind {α β : Type} {host : Host} {x : Reading α} {f : α → Reading β}
    {g : α → Preferences → Option (β × Preferences)}
    (h : ∀ a e, (f a).outcome host e = g a e.preferences) (e : Effects) :
    (x >>= f).outcome host e = (x.outcome host e).bind fun s => g s.1 s.2 := by
  unfold Reading.outcome at h ⊢
  rw [Reading.after_bind]
  rcases x.after host e with ⟨_ | a, e⟩
  · rfl
  · exact h a e

namespace Draft

/-! ## Taking an option -/

/-- What has been read of the options of a line: the draft and the preferences. -/
abbrev Stage := Draft × Preferences

/-- What an option makes of the stage, unless it turns the line down. -/
def take (host : Host) (s : Stage) (m : Match OptionId) : Option Stage :=
  let (d, p) := s
  match m.id with
  | .verbose => some (d, { p with verbosity := leading m.text.toList })
  | .compat => some (d, { p with compat := true })
  | .timeout => some (d, { p with timeout := some (leading m.text.toList).toNat })
  | .login => (LoginText.read m.text).map fun t => (grammar.mapLogin (·.assign t) d, p)
  | .readPassword => (host.readFile m.text).toOption.map fun text =>
    (grammar.mapLogin (·.push ⟨String.ofList (firstLine text.toList)⟩) d, p)
  | .help => none
  | .osType => (Guest.findType? m.text).map fun g =>
    (d.mapRecord fun r => { r with guest := some g }, p)
  | .distribution => (Guest.findVersion? m.text).map fun g =>
    (d.mapRecord fun r => { r with guest := some g }, p)
  | .blockSize =>
    match digits word32 m.text.toList with
    | some n => some (d.mapRecord fun r => { r with blockSize := some n }, p)
    | none => some (d, p)
  | id =>
    if (d.conflict? id).isSome then none else (d.applyPure m).toOption.map fun d => (d, p)

/-- Telling which guest systems there are ends the line. -/
theorem after_showGuests (option value : String) (guests : List Guest) (listed : CommandError)
    (host : Host) (e : Effects) :
    ∃ u f, (showGuests option value guests listed).after host e = (.error u, f) := by
  simp only [showGuests]
  split <;> simp

/-- Reading an option is taking it. -/
theorem outcome_step (d : Draft) (m : Match OptionId) (host : Host) (e : Effects) :
    (grammar.step d (.option m)).outcome host e = take host (d, e.preferences) m := by
  unfold Reading.outcome take
  simp only [Grammar.step, readCommonOption, Reading.after_bind, Reading.after_enter]
  cases hid : m.id
  case login =>
    cases ht : LoginText.read m.text <;> simp [readLogin, ht, Except.map]
  case readPassword =>
    cases ht : host.readFile m.text <;>
      simp [readPasswordFile, ht, Except.toOption, Except.mapError, Except.map]
  case verbose => simp [Except.map, grammar]; rfl
  case compat => simp [Except.map, grammar]; rfl
  case timeout => simp [Except.map, grammar]; rfl
  case help => simp [grammar, Draft.apply, conflict?, hid]
  case osType =>
    cases hg : Guest.findType? m.text with
    | some g => simp [grammar, Draft.apply, conflict?, hid, hg]
    | none =>
      obtain ⟨u, f, hshow⟩ := after_showGuests "--ostype" m.text Guest.types .reported host
        { e with options := e.options ++ [m] }
      simp [grammar, Draft.apply, conflict?, hid, hg, hshow]
  case distribution =>
    cases hg : Guest.findVersion? m.text with
    | some g => simp [grammar, Draft.apply, conflict?, hid, hg]
    | none =>
      obtain ⟨u, f, hshow⟩ := after_showGuests "--distribution" m.text Guest.versions (.exit 0) host
        { e with options := e.options ++ [m] }
      simp [grammar, Draft.apply, conflict?, hid, hg, hshow]
  case blockSize =>
    cases hn : digits word32 m.text.toList <;>
      simp [grammar, Draft.apply, conflict?, hid, hn, Effects.addNote, Except.map]
  case setting s =>
    cases hd : d.applyPure m <;> cases hc : s.isCredential <;>
      simp [grammar, Draft.apply, conflict?, hid, hd, hc, Except.toOption]
  all_goals
    simp only [grammar, Draft.apply, hid, Reading.after_pure]
    cases d.conflict? _ <;> cases d.applyPure m <;> simp [Except.toOption]

/-! ## Parts -/

/-- A part of what has been read: what one option changes, or all that options leave alone. -/
inductive Part where
  | login
  | verbosity
  | compat
  | timeout
  | guest
  | blockSize
  | setting (s : Setting)
  | selection
  | device (s : DeviceSetting)
  | adapter (s : AdapterSetting)
  | imageFates
  | attachment
  | kind
  | resources
  | capabilities
  | features
  | appTemplates
  | rates
  | expiration
  | passwordRules
  | offlineServices
  | searchDomains
  | nameServers
  | addresses
  | removals
  | firewallRules
  | rest
  deriving DecidableEq, Repr

/-- What a part holds. -/
abbrev Part.Content : Part → Type
  | .login => Login
  | .verbosity => Int
  | .compat => Bool
  | .timeout => Option Nat
  | .guest => Option Guest
  | .blockSize => Option Nat
  | .setting s => Option s.Value
  | .selection => Option DeviceCommand × Option DeviceKind × Option String × Option String
  | .device s => Option s.Value
  | .adapter s => Option s.Value
  | .imageFates => Multiset ImageFate
  | .attachment => Option DeviceCommand × Option String
  | .kind => GuestKind
  | .resources => List ResourceLimit
  | .capabilities => CapabilityMask
  | .features => Features
  | .appTemplates => List String
  | .rates => List ClassRate
  | .expiration => Expiration
  | .passwordRules => PasswordRules
  | .offlineServices => List String
  | .searchDomains => List String
  | .nameServers => List String
  | .addresses => Bool × List String
  | .removals => Bool × List String
  | .firewallRules => List FirewallRule
  | .rest => Record

/-- The record without anything that an option can say. -/
def unsaid (r : Record) : Record :=
  { r with
    login := ∅, settings := ∅, guest := none, kind := .all, blockSize := none
    device := { r.device with command := none, kind := none, name := none, settings := ∅ }
    backupCommand := none, backupId := none, resources := [], capabilities := .empty
    features := .empty, appTemplates := [], rates := [], expiration := .empty
    offlineServices := [], passwordRules := ∅ }

/-- What a part of the stage holds.  The order of the fates of images does not count. -/
def view (s : Stage) : (p : Part) → p.Content
  | .login => s.1.record.login
  | .verbosity => s.2.verbosity
  | .compat => s.2.compat
  | .timeout => s.2.timeout
  | .guest => s.1.record.guest
  | .blockSize => s.1.record.blockSize
  | .setting k => s.1.record.settings.get? k
  | .selection =>
    let d := s.1.record.device
    (d.command, d.kind, d.name, s.1.adapter.ifName)
  | .device k => s.1.record.device.settings.get? k
  | .adapter k => s.1.adapter.settings.get? k
  | .imageFates => s.1.imageFates
  | .attachment => (s.1.record.backupCommand, s.1.record.backupId)
  | .kind => s.1.record.kind
  | .resources => s.1.record.resources
  | .capabilities => s.1.record.capabilities
  | .features => s.1.record.features
  | .appTemplates => s.1.record.appTemplates
  | .rates => s.1.record.rates
  | .expiration => s.1.record.expiration
  | .passwordRules => s.1.record.passwordRules
  | .offlineServices => s.1.record.offlineServices
  | .searchDomains => s.1.adapter.searchDomains
  | .nameServers => s.1.adapter.nameServers
  | .addresses => (s.1.adapter.replace, s.1.adapter.addresses)
  | .removals => (s.1.adapter.removeAll, s.1.adapter.removed)
  | .firewallRules => s.1.adapter.rules
  | .rest => unsaid s.1.record

/-- What options said, put back. -/
theorem said_unsaid (r : Record) :
    r = { unsaid r with
      login := r.login, settings := r.settings, guest := r.guest, kind := r.kind
      blockSize := r.blockSize
      device := { (unsaid r).device with
        command := r.device.command, kind := r.device.kind, name := r.device.name
        settings := r.device.settings }
      backupCommand := r.backupCommand, backupId := r.backupId, resources := r.resources
      capabilities := r.capabilities, features := r.features, appTemplates := r.appTemplates
      rates := r.rates, expiration := r.expiration, offlineServices := r.offlineServices
      passwordRules := r.passwordRules } :=
  rfl

section View

variable {s t : Stage} (h : view s = view t)
include h

theorem record_eq_of_view_eq : s.1.record = t.1.record := by
  have at_ (p : Part) : view s p = view t p := congrFun h p
  have hs : s.1.record.settings = t.1.record.settings :=
    Sheet.ext (funext fun k => at_ (.setting k))
  have hd : s.1.record.device.settings = t.1.record.device.settings :=
    Sheet.ext (funext fun k => at_ (.device k))
  have hsel := at_ .selection
  have hatt := at_ .attachment
  simp only [view, Prod.mk.injEq] at hsel hatt
  rw [said_unsaid s.1.record, said_unsaid t.1.record, show unsaid s.1.record = _ from at_ .rest,
    show s.1.record.login = _ from at_ .login, hs, show s.1.record.guest = _ from at_ .guest,
    show s.1.record.kind = _ from at_ .kind, show s.1.record.blockSize = _ from at_ .blockSize,
    hsel.1, hsel.2.1, hsel.2.2.1, hd, hatt.1, hatt.2,
    show s.1.record.resources = _ from at_ .resources,
    show s.1.record.capabilities = _ from at_ .capabilities,
    show s.1.record.features = _ from at_ .features,
    show s.1.record.appTemplates = _ from at_ .appTemplates,
    show s.1.record.rates = _ from at_ .rates,
    show s.1.record.expiration = _ from at_ .expiration,
    show s.1.record.offlineServices = _ from at_ .offlineServices,
    show s.1.record.passwordRules = _ from at_ .passwordRules]
  rfl

theorem adapter_eq_of_view_eq : s.1.adapter = t.1.adapter := by
  have at_ (p : Part) : view s p = view t p := congrFun h p
  have hs : s.1.adapter.settings = t.1.adapter.settings :=
    Sheet.ext (funext fun k => at_ (.adapter k))
  have hsel := at_ .selection
  have hadd := at_ .addresses
  have hrem := at_ .removals
  simp only [view, Prod.mk.injEq] at hsel hadd hrem
  obtain ⟨⟨r, a, f⟩, q⟩ := s
  obtain ⟨⟨r', a', f'⟩, q'⟩ := t
  cases a
  cases a'
  exact (Adapter.mk.injEq ..).mpr ⟨hsel.2.2.2, at_ .searchDomains, at_ .nameServers, hadd.2, hrem.2,
    hrem.1, hadd.1, at_ .firewallRules, hs⟩

theorem preferences_eq_of_view_eq : s.2 = t.2 := by
  have at_ (p : Part) : view s p = view t p := congrFun h p
  obtain ⟨d, q⟩ := s
  obtain ⟨d', q'⟩ := t
  cases q
  cases q'
  exact (Preferences.mk.injEq ..).mpr ⟨at_ .verbosity, at_ .compat, at_ .timeout⟩

theorem imageFates_perm_of_view_eq : s.1.imageFates.Perm t.1.imageFates :=
  Multiset.coe_eq_coe.1 (congrFun h .imageFates)

end View

/-- The part that an option changes, if it is an option of guest lines. -/
def part? : OptionId → Option Part
  | .verbose => some .verbosity
  | .timeout => some .timeout
  | .login => some .login
  | .readPassword => some .login
  | .compat => some .compat
  | .setting s => some (.setting s)
  | .osType => some .guest
  | .distribution => some .guest
  | .guestKind => some .kind
  | .blockSize => some .blockSize
  | .onlineClone => some .rest
  | .selector _ => some .selection
  | .device s => some (.device s)
  | .imageFate _ => some .imageFates
  | .backupAdd => some .attachment
  | .backupDelete => some .attachment
  | .swapPages => some .resources
  | .swap => some .resources
  | .quotaUgidLimit => some .resources
  | .capability => some .capabilities
  | .features => some .features
  | .appTemplate => some .appTemplates
  | .rate => some .rates
  | .expiration => some .expiration
  | .requirePassword => some .passwordRules
  | .offlineService => some .offlineServices
  | .adapter s => some (.adapter s)
  | .searchDomain => some .searchDomains
  | .nameServer => some .nameServers
  | .ipSet => some .addresses
  | .ipAdd => some .addresses
  | .ipDelete => some .removals
  | .firewallRule => some .firewallRules
  | _ => none

theorem part?_eq_setting {id : OptionId} {k : Setting} :
    part? id = some (.setting k) ↔ id = .setting k := by
  cases id <;> simp [part?]

theorem part?_eq_device {id : OptionId} {k : DeviceSetting} :
    part? id = some (.device k) ↔ id = .device k := by
  cases id <;> simp [part?]

theorem part?_eq_adapter {id : OptionId} {k : AdapterSetting} :
    part? id = some (.adapter k) ↔ id = .adapter k := by
  cases id <;> simp [part?]

theorem take_eq_none {m : Match OptionId} (h : part? m.id = none) (host : Host) (s : Stage) :
    take host s m = none := by
  cases hid : m.id <;> simp [hid, part?] at h <;>
    simp [take, hid, conflict?, applyPure, Except.toOption]

theorem view_select_of_ne {d d' : Draft} {k : Selector} {value : String}
    (h : d.select k value = .ok d') (q : Preferences) {p : Part} (hp : p ≠ .selection) :
    view (d', q) p = view (d, q) p := by
  unfold select at h
  cases k <;> dsimp only at h
  case add =>
    split at h <;> cases h
    cases p <;> first | rfl | exact absurd rfl hp
  case set =>
    split at h <;> cases h
    cases p <;> first | rfl | exact absurd rfl hp
  all_goals
    cases h
    cases p <;> first | rfl | exact absurd rfl hp

/-- One option counts as being for what no option says: it does nothing. -/
theorem eq_onlineClone_of_part? {id : OptionId} (h : part? id = some .rest) :
    id = .onlineClone := by
  cases id <;> first | rfl | cases h

/-- What a line is for is part of what no option says. -/
theorem action_of_unsaid {r r' : Record} (h : unsaid r' = unsaid r) : r'.action = r.action := by
  have haction : (unsaid r').action = (unsaid r).action := by rw [h]
  exact haction

theorem view_applyPure_of_ne {m : Match OptionId} {d d' : Draft} {p : Part}
    (h : d.applyPure m = .ok d') (q : Preferences) (hp : part? m.id ≠ some p) :
    view (d', q) p = view (d, q) p := by
  cases hid : m.id <;> rw [hid] at hp <;>
    simp only [applyPure, hid, bind_eq_ok, map_eq_ok, pure, Except.pure, Except.ok.injEq,
      reduceCtorEq] at h
  case setting k =>
    obtain ⟨v, -, rfl⟩ := h
    cases p with
    | setting j => exact Sheet.get?_insert_of_ne _ _ fun hk => hp (hk ▸ rfl)
    | _ => rfl
  case device k =>
    obtain ⟨v, -, rfl⟩ := h
    cases p with
    | device j => exact Sheet.get?_insert_of_ne _ _ fun hk => hp (hk ▸ rfl)
    | _ => rfl
  case adapter k =>
    obtain ⟨v, -, rfl⟩ := h
    cases p with
    | adapter j => exact Sheet.get?_insert_of_ne _ _ fun hk => hp (hk ▸ rfl)
    | _ => rfl
  case selector k => exact view_select_of_ne h q fun hk => hp (hk ▸ rfl)
  case ipDelete =>
    split at h <;> cases h <;> cases p <;> first | rfl | exact absurd rfl hp
  case guestKind | swapPages | swap | quotaUgidLimit | capability | features | rate | expiration |
      requirePassword | firewallRule =>
    obtain ⟨v, -, rfl⟩ := h
    cases p <;> first | rfl | exact absurd rfl hp
  all_goals
    subst h
    cases p <;> first | rfl | exact absurd rfl hp

theorem view_take_of_ne {host : Host} {m : Match OptionId} {s s' : Stage} {p : Part}
    (h : take host s m = some s') (hp : part? m.id ≠ some p) : view s' p = view s p := by
  obtain ⟨d, q⟩ := s
  unfold take at h
  dsimp only at h
  split at h
  case h_1 hid | h_2 hid | h_3 hid =>
    cases h
    cases p <;> first | rfl | exact absurd rfl (hid ▸ hp)
  case h_4 hid | h_5 hid | h_7 hid | h_8 hid =>
    obtain ⟨v, -, rfl⟩ := Option.map_eq_some_iff.1 h
    cases p <;> first | rfl | exact absurd rfl (hid ▸ hp)
  case h_6 => cases h
  case h_9 hid =>
    split at h <;> cases h <;> cases p <;> first | rfl | exact absurd rfl (hid ▸ hp)
  case h_10 =>
    split at h
    · cases h
    · obtain ⟨d', hd, rfl⟩ := Option.map_eq_some_iff.1 h
      exact view_applyPure_of_ne (toOption_eq_some.1 hd) q hp

/-! ## What an option enters -/

section Entries

variable {host : Host} {m : Match OptionId} {s s' : Stage} (h : take host s m = some s')
include h

/-- An option that is taken like most others does nothing but enter its value. -/
theorem exists_applyPure_of_take
    (hid : m.id ∉ [.verbose, .compat, .timeout, .login, .readPassword, .help, .osType,
      .distribution, .blockSize]) :
    ∃ d, s.1.applyPure m = .ok d ∧ s' = (d, s.2) := by
  obtain ⟨d, q⟩ := s
  unfold take at h
  dsimp only at h
  split at h
  case h_10 =>
    split at h
    · cases h
    · obtain ⟨d', hd, rfl⟩ := Option.map_eq_some_iff.1 h
      exact ⟨d', toOption_eq_some.1 hd, rfl⟩
  all_goals
    next hspecial => exact absurd (by rw [hspecial]; decide) hid

/-- A setting of the guest takes the value of its option. -/
theorem setting_of_take {k : Setting} (hid : m.id = .setting k) :
    ∃ v, k.read m.name m.text = .ok v ∧ s'.1.record.settings.get? k = some v := by
  obtain ⟨d, hd, rfl⟩ := exists_applyPure_of_take h (by simp [hid])
  simp only [applyPure, hid, bind_eq_ok] at hd
  obtain ⟨v, hv, ⟨⟩⟩ := hd
  exact ⟨v, hv, Sheet.get?_insert_self ..⟩

/-- A property of the device does. -/
theorem deviceSetting_of_take {k : DeviceSetting} (hid : m.id = .device k) :
    ∃ v, k.read m.name m.text = .ok v ∧ s'.1.record.device.settings.get? k = some v := by
  obtain ⟨d, hd, rfl⟩ := exists_applyPure_of_take h (by simp [hid])
  simp only [applyPure, hid, bind_eq_ok] at hd
  obtain ⟨v, hv, ⟨⟩⟩ := hd
  exact ⟨v, hv, Sheet.get?_insert_self ..⟩

/-- A setting of the adapter does. -/
theorem adapterSetting_of_take {k : AdapterSetting} (hid : m.id = .adapter k) :
    ∃ v, k.read m.name m.text = .ok v ∧ s'.1.adapter.settings.get? k = some v := by
  obtain ⟨d, hd, rfl⟩ := exists_applyPure_of_take h (by simp [hid])
  simp only [applyPure, hid, bind_eq_ok] at hd
  obtain ⟨v, hv, ⟨⟩⟩ := hd
  exact ⟨v, hv, Sheet.get?_insert_self ..⟩

end Entries

/-- The mark that a mark of a device excludes. -/
def opposite? : DeviceMark → Option DeviceMark
  | .enable => some .disable
  | .disable => some .enable
  | .connect => some .disconnect
  | .disconnect => some .connect
  | _ => none

/-- The parts that an option watches besides its own. -/
def watched : OptionId → List Part
  | .guestKind => [.rest]
  | .device (.text .device) => [.device (.text .image)]
  | .device (.text .image) => [.device (.text .device)]
  | .device (.mark k) => (opposite? k).toList.map fun k => .device (.mark k)
  | _ => []

/-- Whether an option reads a part. -/
def Reads (id : OptionId) (p : Part) : Prop := part? id = some p ∨ p ∈ watched id

theorem hasText_congr {s t : Stage} {k : DeviceText}
    (h : view s (.device (.text k)) = view t (.device (.text k))) :
    s.1.record.device.hasText k = t.1.record.device.hasText k := by
  have ht : s.1.record.device.text? k = t.1.record.device.text? k := h
  simp only [Device.hasText, ht]

theorem has_congr {s t : Stage} {k : DeviceMark}
    (h : view s (.device (.mark k)) = view t (.device (.mark k))) :
    s.1.record.device.has k = t.1.record.device.has k :=
  congrArg Option.isSome h

/-- Whether an option is excluded depends on what it reads. -/
theorem conflict?_congr {id : OptionId} {s t : Stage}
    (h : ∀ p, Reads id p → view s p = view t p) : s.1.conflict? id = t.1.conflict? id := by
  have own {p : Part} (hp : part? id = some p) : view s p = view t p := h p (.inl hp)
  have other {p : Part} (hp : p ∈ watched id) : view s p = view t p := h p (.inr hp)
  cases id with
  | selector k =>
    have hc : s.1.record.device.command = t.1.record.device.command := congrArg Prod.fst (own rfl)
    cases k <;> simp only [conflict?, hc]
  | device k =>
    cases k with
    | text k =>
      cases k <;> try rfl
      all_goals simp only [conflict?, hasText_congr (other (List.mem_singleton.2 rfl))]
    | mark k =>
      cases k <;> try rfl
      all_goals simp only [conflict?, has_congr (other (List.mem_singleton.2 rfl))]
    | _ => rfl
  | backupAdd =>
    have hc : s.1.record.backupCommand = t.1.record.backupCommand := congrArg Prod.fst (own rfl)
    simp only [conflict?, hc]
  | backupDelete =>
    have hc : s.1.record.backupCommand = t.1.record.backupCommand := congrArg Prod.fst (own rfl)
    simp only [conflict?, hc]
  | _ => rfl

section Rel

variable {α β γ : Type} {R : β → γ → Prop}

theorem rel_bind {x : Except CommandError α} {f : α → Except CommandError β}
    {g : α → Except CommandError γ} (h : ∀ a, Option.Rel R (f a).toOption (g a).toOption) :
    Option.Rel R (x >>= f).toOption (x >>= g).toOption := by
  cases x with
  | error u => exact .none
  | ok a => exact h a

theorem rel_map {x : Except CommandError α} {f : α → β} {g : α → γ} (h : ∀ a, R (f a) (g a)) :
    Option.Rel R (x.map f).toOption (x.map g).toOption := by
  cases x with
  | error u => exact .none
  | ok a => exact .some (h a)

theorem rel_option_bind {δ : Type} {R' : α → δ → Prop} {x : Option β} {y : Option γ}
    {f : β → Option α} {g : γ → Option δ} (h : Option.Rel R x y)
    (hfg : ∀ b c, R b c → Option.Rel R' (f b) (g c)) : Option.Rel R' (x.bind f) (y.bind g) := by
  cases h with
  | none => exact .none
  | some h => exact hfg _ _ h

theorem rel_pair {R : α × Preferences → γ × Preferences → Prop} {x : Option α} {y : Option γ}
    {q q' : Preferences} (h : Option.Rel (fun a c => R (a, q) (c, q')) x y) :
    Option.Rel R (x.map (·, q)) (y.map (·, q')) := by
  cases h with
  | none => exact .none
  | some h => exact .some h

end Rel

theorem select_congr {d d' : Draft} {q q' : Preferences} (k : Selector) (value : String)
    (h : view (d, q) .selection = view (d', q') .selection) :
    Option.Rel (fun e e' => ∀ p, some .selection = some p → view (e, q) p = view (e', q') p)
      (d.select k value).toOption (d'.select k value).toOption := by
  simp only [view, Prod.mk.injEq] at h
  obtain ⟨hc, hk, hn, hi⟩ := h
  unfold select
  cases k <;> dsimp only
  case add =>
    cases DeviceKind.read? value with
    | none => exact .none
    | some k => exact .some (by rintro p ⟨⟩; simp [view, hn, hi])
  case set =>
    cases kindOfName? (deviceName value) with
    | none => exact .none
    | some k => exact .some (by rintro p ⟨⟩; simp [view, hi])
  all_goals exact .some (by rintro p ⟨⟩; simp [view, hk, hn, hi])

theorem applyPure_congr {m : Match OptionId} {d d' : Draft} {q q' : Preferences}
    (h : ∀ p, Reads m.id p → view (d, q) p = view (d', q') p) :
    Option.Rel (fun e e' => ∀ p, part? m.id = some p → view (e, q) p = view (e', q') p)
      (d.applyPure m).toOption (d'.applyPure m).toOption := by
  cases hid : m.id <;> rw [hid] at h <;> simp only [applyPure, hid]
  case setting k =>
    refine rel_bind fun v => .some ?_
    rintro p ⟨⟩
    simp [view, mapRecord, Record.set]
  case device k =>
    refine rel_bind fun v => .some ?_
    rintro p ⟨⟩
    simp [view, mapRecord, Device.set]
  case adapter k =>
    refine rel_bind fun v => .some ?_
    rintro p ⟨⟩
    simp [view, mapAdapter, Adapter.set]
  case selector k => exact select_congr k m.text (h .selection (.inl rfl))
  case ipDelete =>
    have hv := h _ (.inl rfl)
    simp only [view, Prod.mk.injEq] at hv
    split <;> refine .some ?_ <;> rintro p ⟨⟩ <;> simp [view, mapAdapter, hv]
  case guestKind =>
    have hr : unsaid d.record = unsaid d'.record := h .rest (.inr (List.mem_singleton.2 rfl))
    have ha : (unsaid d.record).action = (unsaid d'.record).action := by rw [hr]
    have hc : d.record.action = d'.record.action := ha
    rw [hc]
    refine rel_bind fun v => .some ?_
    rintro p ⟨⟩
    rfl
  case capability =>
    have hv : d.record.capabilities = d'.record.capabilities := h .capabilities (.inl rfl)
    rw [hv]
    refine rel_map fun v => ?_
    rintro p ⟨⟩
    rfl
  case features =>
    have hv : d.record.features = d'.record.features := h .features (.inl rfl)
    rw [hv]
    refine rel_map fun v => ?_
    rintro p ⟨⟩
    rfl
  case expiration =>
    have hv : d.record.expiration = d'.record.expiration := h .expiration (.inl rfl)
    rw [hv]
    refine rel_bind fun v => .some ?_
    rintro p ⟨⟩
    rfl
  case swapPages | swap | quotaUgidLimit | rate | requirePassword | firewallRule =>
    refine rel_bind fun v => .some ?_
    rintro p ⟨⟩
    have hv := h _ (.inl rfl)
    simp only [view] at hv
    simp [view, mapRecord, mapAdapter, hv]
  case imageFate f =>
    refine .some ?_
    rintro p ⟨⟩
    have hv : (d.imageFates : Multiset ImageFate) = d'.imageFates := h .imageFates (.inl rfl)
    exact Multiset.coe_eq_coe.2 ((Multiset.coe_eq_coe.1 hv).append_right _)
  case backupAdd | backupDelete | appTemplate | offlineService | searchDomain | nameServer | ipSet |
      ipAdd =>
    refine .some ?_
    rintro p ⟨⟩
    have hv := h _ (.inl rfl)
    simp only [view, Prod.mk.injEq] at hv
    simp [view, mapRecord, mapAdapter, hv]
  case onlineClone => exact .some fun p hp => h p (.inl hp)
  all_goals exact .none

theorem take_congr {host : Host} {m : Match OptionId} {s t : Stage}
    (h : ∀ p, Reads m.id p → view s p = view t p) :
    Option.Rel (fun s' t' => ∀ p, part? m.id = some p → view s' p = view t' p)
      (take host s m) (take host t m) := by
  obtain ⟨d, q⟩ := s
  obtain ⟨d', q'⟩ := t
  unfold take
  dsimp only
  split
  case h_1 hid | h_2 hid | h_3 hid =>
    rw [hid]
    exact .some (by rintro p ⟨⟩; rfl)
  case h_4 hid =>
    rw [hid] at h ⊢
    have hl : d.record.login = d'.record.login := h .login (.inl rfl)
    cases LoginText.read m.text with
    | none => exact .none
    | some l => exact .some (by rintro p ⟨⟩; exact congrArg (Login.assign · l) hl)
  case h_5 hid =>
    rw [hid] at h ⊢
    have hl : d.record.login = d'.record.login := h .login (.inl rfl)
    cases (host.readFile m.text).toOption with
    | none => exact .none
    | some text => exact .some (by rintro p ⟨⟩; exact congrArg (Login.push · _) hl)
  case h_6 => exact .none
  case h_7 hid =>
    rw [hid]
    cases Guest.findType? m.text with
    | none => exact .none
    | some g => exact .some (by rintro p ⟨⟩; rfl)
  case h_8 hid =>
    rw [hid]
    cases Guest.findVersion? m.text with
    | none => exact .none
    | some g => exact .some (by rintro p ⟨⟩; rfl)
  case h_9 hid =>
    rw [hid] at h ⊢
    cases digits word32 m.text.toList with
    | none => exact .some fun p hp => h p (.inl hp)
    | some n => exact .some (by rintro p ⟨⟩; rfl)
  case h_10 =>
    have hc : d.conflict? m.id = d'.conflict? m.id := conflict?_congr h
    rw [hc]
    split
    · exact .none
    · exact rel_pair (applyPure_congr h)

/-! ## The end of the line -/

/-- Telling the fate of images changes nothing else. -/
theorem exists_of_settleImageFate {d d' : Draft} (h : d.settleImageFate = .ok d') :
    ∃ fate, d' = d.mapRecord fun r => { r with imageFate := fate } := by
  unfold settleImageFate at h
  split at h
  · cases h
    exact ⟨d.record.imageFate, rfl⟩
  · split at h <;> cases h
    exact ⟨_, rfl⟩

/-- The end of the line changes the settings of the guest, its device and the fate of images only,
apart from the domains and name servers that it moves there. -/
theorem exists_of_finish {d : Draft} {r : Record} (h : d.finish = .ok r) :
    ∃ settings device fate domains servers, r = { d.record with
      settings := settings, device := device, imageFate := fate
      searchDomains := domains, nameServers := servers } := by
  simp only [finish, bind_eq_ok] at h
  obtain ⟨d', hd, h⟩ := h
  cases h
  obtain ⟨fate, hd'⟩ := exists_of_settleImageFate hd
  have hfate : d'.record = { d.record with imageFate := fate } := congrArg Draft.record hd'
  have hsettled : ∃ settings device,
      settleSize (settleDisk d'.record) = { d'.record with settings := settings, device := device } := by
    unfold settleSize settleDisk
    split <;> split <;> exact ⟨_, _, rfl⟩
  obtain ⟨settings, device, hsettled⟩ := hsettled
  have hrecord : (d'.mapRecord (settleSize ∘ settleDisk)).record =
      { d'.record with settings := settings, device := device } := hsettled
  rw [hfate] at hrecord
  unfold settleAdapter
  rw [hrecord]
  dsimp only
  split <;> exact ⟨_, _, _, _, _, rfl⟩

/-- A change of the record that is not about images can be made before their fate is told or
after. -/
theorem settleImageFate_mapRecord {f : Record → Record}
    (hfate : ∀ r fate, { f r with imageFate := fate } = f { r with imageFate := fate })
    (d : Draft) : (d.mapRecord f).settleImageFate = d.settleImageFate.map (·.mapRecord f) := by
  obtain ⟨r, adapter, fates⟩ := d
  cases fates with
  | nil => rfl
  | cons fate fates =>
    unfold settleImageFate mapRecord
    dsimp only
    rw [hfate]
    split <;> rfl

/-- A change of the record that the end of the line does not look at can be made after it. -/
theorem finish_mapRecord {f : Record → Record}
    (hfate : ∀ r fate, { f r with imageFate := fate } = f { r with imageFate := fate })
    (hdisk : ∀ r, settleDisk (f r) = f (settleDisk r))
    (hsize : ∀ r, settleSize (f r) = f (settleSize r))
    (hadapter : ∀ d : Draft, (d.mapRecord f).settleAdapter = f d.settleAdapter) (d : Draft) :
    (d.mapRecord f).finish = d.finish.map f := by
  unfold finish
  rw [settleImageFate_mapRecord hfate]
  cases d.settleImageFate with
  | error u => rfl
  | ok d' =>
    refine congrArg Except.ok ?_
    rw [← hadapter]
    simp only [mapRecord, Function.comp_apply, hdisk, hsize]

theorem finish_target (d : Draft) (target : Option String) :
    (d.mapRecord fun r => { r with target := target }).finish =
      d.finish.map fun r => { r with target := target } := by
  refine finish_mapRecord (fun _ _ => rfl) (fun r => ?_) (fun r => ?_) (fun d => ?_) d
  · unfold settleDisk
    split <;> rfl
  · unfold settleSize
    split <;> rfl
  · unfold settleAdapter
    dsimp only [mapRecord]
    split <;> rfl

theorem finish_set_location (d : Draft) (path : String) :
    (d.mapRecord (·.set (.text .location) path)).finish =
      d.finish.map (·.set (.text .location) path) := by
  refine finish_mapRecord (fun _ _ => rfl) (fun r => ?_) (fun r => ?_) (fun d => ?_) d
  · have hget : (r.settings.insert (.text .location) path).get? (.switch .autoCompact) =
        r.settings.get? (.switch .autoCompact) :=
      Sheet.get?_insert_of_ne _ _ (by decide)
    have herase : (r.settings.insert (.text .location) path).erase (.switch .autoCompact) =
        (r.settings.erase (.switch .autoCompact)).insert (.text .location) path :=
      Sheet.erase_insert_comm _ _ (by decide)
    unfold settleDisk Record.set
    dsimp only
    rw [hget, herase]
    split <;> rfl
  · unfold settleSize Record.set
    dsimp only
    split <;> rfl
  · unfold settleAdapter Record.set mapRecord
    dsimp only
    split <;> rfl

end Draft

end VmControl

