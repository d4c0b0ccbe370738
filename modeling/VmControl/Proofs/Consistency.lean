import Mathlib.Logic.Basic
import VmControl.Consistency

/-!
# What consistent records keep

The rules for guests are enforced before and after paths are made full.  None of them looks at the
text of a path, so the record that comes out keeps the rules of both sides.  What the rules come to
is said here without the order in which they are enforced and the violations that they name.

## Main definitions

* `Record.FitsDevice`, `Record.FitsSource`: what a record says about its device, and where a new
  guest comes from.
* `Migration.Fits`, `VirtualNetwork.Fits`, `PrivateNetwork.Fits`, `Server.Fits`: the same for other
  commands.

## Main statements

* `Record.rules_of_consistent`: a consistent record keeps all rules.
* `Record.consistent_set_location`: a consistent record is so with another location that can be made
  full.
-/

namespace VmControl

/-! ## Paths -/

namespace Record

variable {host : Host} {r r' : Record}

/-- Making the location full changes nothing but the location. -/
theorem resolveLocation_cases (h : resolveLocation host r = .ok r') :
    r' = r ∨ ∃ full, r' = r.set (.text .location) full := by
  unfold resolveLocation at h
  split at h
  · cases h
    exact .inl rfl
  · obtain ⟨full, -, rfl⟩ := map_eq_ok.1 h
    exact .inr ⟨full, rfl⟩

/-- Making the image full changes nothing but the image. -/
theorem resolveImage_cases (h : resolveImage host r = .ok r') :
    r' = r ∨ ∃ full, r' = { r with device := r.device.set (.text .image) full } := by
  unfold resolveImage at h
  split at h
  · cases h
    exact .inl rfl
  · obtain ⟨full, -, rfl⟩ := map_eq_ok.1 h
    exact .inr ⟨full, rfl⟩

/-- Making a record consistent leaves everything but settings and the device alone. -/
theorem exists_of_consistent (h : r.consistent host = .ok r') :
    ∃ settings device, r' = { r with settings := settings, device := device } := by
  simp only [consistent, bind_eq_ok] at h
  obtain ⟨-, -, r₁, h₁, r₂, h₂, -, -, h⟩ := h
  cases h
  rcases resolveLocation_cases h₁ with rfl | ⟨full, rfl⟩ <;>
    rcases resolveImage_cases h₂ with rfl | ⟨full', rfl⟩ <;> exact ⟨_, _, rfl⟩

/-- What a record settles as, apart from what the user is told. -/
theorem after_settle (r : Record) (host : Host) (e : Effects) :
    (r.settle.after host e).1 = r.consistent host := by
  unfold settle
  split <;> simp

theorem backupCommand_of_consistent (h : r.consistent host = .ok r') :
    r'.backupCommand = r.backupCommand := by
  obtain ⟨settings, device, rfl⟩ := exists_of_consistent h
  rfl

/-- No rule looks at the location. -/
theorem earlyRules_set_location (r : Record) (full : String) :
    (r.set (.text .location) full).earlyRules = r.earlyRules := by
  have hget (k : Setting) (hk : .text .location ≠ k) :
      (r.set (.text .location) full).settings.get? k = r.settings.get? k :=
    Sheet.get?_insert_of_ne _ _ hk
  simp only [earlyRules, sourceRules, actionRules, has, hasText, Sheet.has]
  rw [hget _ (by decide), hget _ (by decide), hget _ (by decide), hget _ (by decide)]
  rfl

theorem lateRules_set_location (r : Record) (full : String) :
    (r.set (.text .location) full).lateRules = r.lateRules := by
  have hget : (r.set (.text .location) full).settings.get? (.text .backupDisk) =
      r.settings.get? (.text .backupDisk) :=
    Sheet.get?_insert_of_ne _ _ (by decide)
  simp only [lateRules, backupRules, hasText, Sheet.has]
  rw [hget]
  rfl

/-- No rule of a command looks at the image. -/
theorem earlyRules_set_image (r : Record) (full : String) :
    { r with device := r.device.set (.text .image) full }.earlyRules = r.earlyRules := by
  have hget (k : DeviceSetting) (hk : .text .image ≠ k) :
      (r.device.set (.text .image) full).settings.get? k = r.device.settings.get? k :=
    Sheet.get?_insert_of_ne _ _ hk
  have hrules : { r with device := r.device.set (.text .image) full }.deviceKindRules =
      r.deviceKindRules := by
    simp only [deviceKindRules, Device.hasText, Device.text?]
    rw [hget _ (by decide), hget _ (by decide), hget _ (by decide), hget _ (by decide),
      hget _ (by decide)]
    rfl
  simp only [earlyRules, actionRules, hrules]
  rfl

/-- **A consistent record keeps all rules.** -/
theorem rules_of_consistent (h : r.consistent host = .ok r') :
    (∀ rule ∈ r'.earlyRules, rule.broken = false) ∧ ∀ rule ∈ r'.lateRules, rule.broken = false := by
  simp only [consistent, bind_eq_ok] at h
  obtain ⟨_, hearly, r₁, h₁, r₂, h₂, _, hlate, h⟩ := h
  cases h
  have hearly₁ : r₁.earlyRules = r.earlyRules := by
    rcases resolveLocation_cases h₁ with rfl | ⟨full, rfl⟩
    · rfl
    · exact earlyRules_set_location r full
  have hearly₂ : r'.earlyRules = r₁.earlyRules := by
    rcases resolveImage_cases h₂ with rfl | ⟨full, rfl⟩
    · rfl
    · exact earlyRules_set_image r₁ full
  rw [hearly₂, hearly₁]
  exact ⟨Rule.enforce_eq_ok.1 hearly, Rule.enforce_eq_ok.1 hlate⟩

/-! ### Other paths -/

/-- A path that looks like an option is relative: it stands for a path on this host, or none. -/
theorem resolvePath_of_dash {path : String} {remote : Bool} {full : String}
    (hdash : path.toList.head? = some '-') :
    resolvePath host remote path = .ok full ↔ remote = false ∧ host.fullPath path = .ok full := by
  have hne : ¬ (path = "" ∨ path.toList.head? = some '/') := by
    rintro (rfl | hslash)
    · cases hdash
    · rw [hdash] at hslash
      exact absurd hslash (by decide)
  unfold resolvePath
  rw [if_neg hne]
  cases remote with
  | true => simp
  | false => cases host.fullPath path <;> simp

/-- Making the image full changes nothing but the device, and looks at the login besides. -/
theorem resolveImage_map {f : Record → Record} (hdevice : ∀ r, (f r).device = r.device)
    (hlogin : ∀ r, (f r).login = r.login)
    (hput : ∀ r device, { f r with device := device } = f { r with device := device })
    (r : Record) : resolveImage host (f r) = (resolveImage host r).map f := by
  have hremote : (f r).login.isRemote = r.login.isRemote := by rw [hlogin]
  unfold resolveImage
  rw [hdevice]
  cases r.device.text? .image with
  | none => rfl
  | some image =>
    dsimp only
    rw [hremote]
    cases resolvePath host r.login.isRemote image with
    | error u => rfl
    | ok full => exact congrArg Except.ok (hput r _)

theorem resolveImage_set_location (r : Record) (path : String) :
    resolveImage host (r.set (.text .location) path) =
      (resolveImage host r).map (·.set (.text .location) path) :=
  resolveImage_map (f := (·.set (.text .location) path)) (fun _ => rfl) (fun _ => rfl)
    (fun _ _ => rfl) r

theorem resolveLocation_set_location (r : Record) (path : String) :
    resolveLocation host (r.set (.text .location) path) =
      (resolvePath host r.login.isRemote path).map fun full => r.set (.text .location) full := by
  have htext : (r.set (.text .location) path).text? .location = some path :=
    Sheet.get?_insert_self ..
  have hset (full : String) : (r.set (.text .location) path).set (.text .location) full =
      r.set (.text .location) full := by
    simp only [set, Sheet.insert_insert]
  unfold resolveLocation
  rw [htext]
  simp only [hset]
  rfl

/-- **A consistent record is consistent with another location if that can be made full.** -/
theorem consistent_set_location (h : r.consistent host = .ok r') (path : String) :
    (∃ r'', (r.set (.text .location) path).consistent host = .ok r'') ↔
      ∃ full, resolvePath host r.login.isRemote path = .ok full := by
  simp only [consistent, bind_eq_ok, earlyRules_set_location, resolveLocation_set_location] at h ⊢
  constructor
  · rintro ⟨r'', -, -, r₁, h₁, -⟩
    obtain ⟨full, hfull, -⟩ := map_eq_ok.1 h₁
    exact ⟨full, hfull⟩
  · rintro ⟨full, hfull⟩
    obtain ⟨_, hearly, r₁, h₁, r₂, h₂, _, hlate, -⟩ := h
    have himage : ∃ r₂', resolveImage host r = .ok r₂' ∧ r₂'.lateRules = r₂.lateRules := by
      rcases resolveLocation_cases h₁ with rfl | ⟨full', rfl⟩
      · exact ⟨r₂, h₂, rfl⟩
      · rw [resolveImage_set_location] at h₂
        obtain ⟨r₂', h₂', rfl⟩ := map_eq_ok.1 h₂
        exact ⟨r₂', h₂', (lateRules_set_location r₂' full').symm⟩
    obtain ⟨r₂', h₂', hrules⟩ := himage
    refine ⟨_, (), hearly, _, map_eq_ok.2 ⟨full, hfull, rfl⟩, r₂'.set (.text .location) full, ?_,
      (), ?_, rfl⟩
    · rw [resolveImage_set_location, h₂']
      rfl
    · rw [lateRules_set_location, hrules]
      exact hlate

/-- What a record is about is of no account. -/
theorem consistent_target (h : r.consistent host = .ok r') (target : Option String) :
    { r with target := target }.consistent host = .ok { r' with target := target } := by
  simp only [consistent, bind_eq_ok] at h ⊢
  obtain ⟨_, hearly, r₁, h₁, r₂, h₂, _, hlate, h⟩ := h
  cases h
  refine ⟨(), hearly, { r₁ with target := target }, ?_, { r' with target := target }, ?_, (), hlate,
    rfl⟩
  · have htext : { r with target := target }.text? .location = r.text? .location := rfl
    unfold resolveLocation at h₁ ⊢
    rw [htext]
    cases hpath : r.text? .location with
    | none =>
      rw [hpath] at h₁
      cases h₁
      rfl
    | some path =>
      rw [hpath] at h₁
      obtain ⟨full, hfull, rfl⟩ := map_eq_ok.1 h₁
      exact map_eq_ok.2 ⟨full, hfull, rfl⟩
  · rw [resolveImage_map (f := fun r => { r with target := target }) (fun _ => rfl) (fun _ => rfl)
      (fun _ _ => rfl) r₁, h₂]
    rfl

end Record

/-! ## What the rules come to -/

/-- What a record says about the device fits together. -/
structure Record.FitsDevice (r : Record) : Prop where
  /-- A mode is that of a disk, or of an adapter without a virtual network. -/
  mode : ∀ mode, r.device.settings.get? .mode = some mode →
    (r.device.kind = some .hdd ∧ mode = .hddExpand) ∨
      (r.device.kind = some .net ∧ mode = .netRouted ∧ r.device.text? .network = none)
  /-- Some devices have an output. -/
  output : r.device.hasText .output = true →
    r.device.kind = some .serial ∨ r.device.kind = some .parallel ∨ r.device.kind = some .sound
  /-- Serial ports have a socket. -/
  socket : r.device.hasText .socket = true → r.device.kind = some .serial
  /-- Sound cards have a mixer. -/
  mixer : r.device.hasText .mixer = true → r.device.kind = some .sound
  /-- Disks are made anew. -/
  recreate : r.device.has .recreate = true → r.device.kind = some .fdd ∨ r.device.kind = some .hdd
  /-- A virtual network leaves no choice of an interface or a mode. -/
  network : r.device.hasText .network = true →
    r.device.hasText .interface = false ∧ r.device.settings.get? .mode = none
  /-- Rules of the firewall have a direction. -/
  rules : r.device.adapter.rules ≠ [] → r.device.adapter.settings.has .firewallDirection = true
  /-- A direction of the firewall belongs to a policy or to rules. -/
  direction : r.device.adapter.settings.has .firewallDirection = true →
    r.device.adapter.settings.has .firewallPolicy = true ∨ r.device.adapter.rules ≠ []
  /-- A backup stands for the device. -/
  backup : r.backupCommand ≠ none → r.device.command = none
  /-- A disk of a backup is that of a backup. -/
  backupDisk : r.hasText .backupDisk = true → r.backupCommand ≠ none
  /-- Properties of a backup that is attached are those of a disk. -/
  attached : r.backupCommand = some .add → r.device.isUpdated = true → r.hasText .backupDisk = true
  /-- A new device or backup that has a position has an interface. -/
  position : r.device.command = some .add ∨ r.backupCommand = some .add →
    r.device.settings.has .position = true → r.device.hasText .interface = true
  /-- Properties that need a device have one, or a backup that is attached. -/
  updated : r.device.isUpdated = true → r.device.command ≠ none ∨ r.backupCommand = some .add
  /-- Settings of an adapter have a device. -/
  adapter : r.device.adapter.isUpdated = true → r.device.command ≠ none

/-- A machine has one source of its guest system. -/
structure Record.FitsSource (r : Record) : Prop where
  /-- It is no sample and no named system together. -/
  configGuest : ¬ (r.hasText .config = true ∧ r.guest.isSome = true)
  /-- It is no sample and no template together. -/
  configTemplate : ¬ (r.hasText .config = true ∧ r.hasText .osTemplate = true)
  /-- It is no template and no named system together. -/
  templateGuest : ¬ (r.hasText .osTemplate = true ∧ r.guest.isSome = true)

/-- A source is copied or moved. -/
structure Migration.Fits (m : Migration) : Prop where
  /-- A copy may get a new system id, the guest itself does not. -/
  systemId : m.changeSystemId = true → m.clone = true
  /-- The source of a copy stays. -/
  removal : ¬ (m.removeSource = true ∧ m.clone = true)

/-- A virtual network is named, and only a bridged one has an adapter of the host. -/
structure VirtualNetwork.Fits (n : VirtualNetwork) : Prop where
  /-- Only a list needs no name. -/
  named : n.command ≠ .list → ∃ name, n.name = some name ∧ name ≠ ""
  /-- The adapter is told in one way. -/
  adapter : ¬ ((n.text? .ifName).isSome = true ∧ (n.text? .mac).isSome = true)
  /-- A bridged network has one. -/
  bridged : n.settings.get? .kind = some .bridged →
    (n.text? .ifName).isSome = true ∨ (n.text? .mac).isSome = true
  /-- Other networks have none by name. -/
  hostOnly : (n.text? .ifName).isSome = true →
    n.settings.get? .kind ≠ some .hostOnly ∧ n.settings.get? .kind ≠ some .shared

/-- A private network is named, and a change changes something. -/
structure PrivateNetwork.Fits (n : PrivateNetwork) : Prop where
  /-- Only a list needs no name. -/
  named : n.command ≠ .list → ∃ name, n.name = some name ∧ name ≠ ""
  /-- A change says what is changed. -/
  changed : n.command = .set → n.addresses ≠ [] ∨ n.removed ≠ [] ∨ n.isGlobal ≠ none

/-- What is told about the server is told in full. -/
structure Server.Fits (s : Server) : Prop where
  /-- Device and owner come together. -/
  device : s.device.isSome = s.settings.has .deviceOwner
  /-- So do the keys of a pair. -/
  keys : s.publicKey.isSome = s.privateKey.isSome

/-! ## From rules to what they come to -/

theorem Record.fitsDevice_of_rules {r : Record}
    (hkind : ∀ rule ∈ r.deviceKindRules, rule.broken = false)
    (hlate : ∀ rule ∈ r.lateRules, rule.broken = false) : r.FitsDevice := by
  simp only [deviceKindRules, List.forall_mem_cons] at hkind
  obtain ⟨hdisk, hbeside, hadapter, hwithout, houtput, hsocket, hmixer, -⟩ := hkind
  simp only [lateRules, deviceUseRules, firewallRules, backupRules, List.cons_append,
    List.nil_append, List.forall_mem_cons] at hlate
  obtain ⟨hrecreate, hmissing, hdevice, hinterface, hmode, halone, hdirection, hbackup,
    hbackupMissing, hbackupDisk, hposition, -⟩ := hlate
  constructor
  case mode =>
    intro mode h
    simp only [h] at hdisk hbeside hadapter hwithout
    cases hkind : r.device.kind with
    | none => simp [hkind] at hwithout
    | some kind =>
      cases kind with
      | hdd =>
        rw [hkind] at hdisk
        exact .inl ⟨rfl, by simpa using hdisk⟩
      | net =>
        rw [hkind] at hbeside hadapter
        exact .inr ⟨rfl, by simpa using hadapter, by simpa using hbeside⟩
      | _ => simp [hkind] at hwithout
  case output =>
    intro h
    simpa [h, or_iff_not_imp_left] using houtput
  case socket =>
    intro h
    simpa [h] using hsocket
  case mixer =>
    intro h
    simpa [h] using hmixer
  case recreate =>
    intro h
    simpa [h, or_iff_not_imp_left] using hrecreate
  case network =>
    intro h
    simp only [h, Bool.true_and] at hinterface hmode
    exact ⟨hinterface, by simpa [Sheet.has] using hmode⟩
  case rules =>
    intro h
    simpa [h] using hdirection
  case direction =>
    intro h
    simpa [h, or_iff_not_imp_left] using halone
  case backup =>
    intro h
    simpa [Option.isSome_iff_ne_none.2 h] using hbackup
  case backupDisk =>
    intro h hnone
    simp [h, hnone] at hbackupMissing
  case attached =>
    intro h hupdated
    simpa [h, hupdated] using hbackupDisk
  case position =>
    intro h hplaced
    rcases h with h | h <;> simpa [h, hplaced] using hposition
  case updated =>
    intro h
    simpa [h, or_iff_not_imp_left] using hdevice
  case adapter =>
    intro h hnone
    simp [h, hnone] at hmissing

theorem Record.fitsSource_of_rules {r : Record} (hkind : r.kind = .machine)
    (h : ∀ rule ∈ r.sourceRules, rule.broken = false) : r.FitsSource := by
  simp only [sourceRules, hkind, List.forall_mem_cons] at h
  obtain ⟨hguest, htemplate, hboth, -⟩ := h
  constructor
  · rintro ⟨hc, hg⟩
    simp [hc, hg] at hguest
  · rintro ⟨hc, ht⟩
    simp [hc, ht] at htemplate
  · rintro ⟨ht, hg⟩
    simp [ht, hg] at hboth

theorem Migration.fits_of_rules {m : Migration} (h : ∀ rule ∈ m.rules, rule.broken = false) :
    m.Fits := by
  simp only [rules, List.forall_mem_cons] at h
  obtain ⟨hid, hremoval, -⟩ := h
  constructor
  · intro hchange
    simpa [hchange] using hid
  · rintro ⟨hr, hc⟩
    simp [hr, hc] at hremoval

theorem isNamed_iff {name : Option String} :
    isNamed name = true ↔ ∃ n, name = some n ∧ n ≠ "" := by
  cases name <;> simp [isNamed]

theorem VirtualNetwork.fits_of_rules {n : VirtualNetwork}
    (h : ∀ rule ∈ n.rules, rule.broken = false) : n.Fits := by
  simp only [rules, List.forall_mem_cons] at h
  obtain ⟨hnamed, htwo, hbridged, hhostOnly, -⟩ := h
  constructor
  · intro hcommand
    exact isNamed_iff.1 (by simpa [hcommand] using hnamed)
  · rintro ⟨hi, hm⟩
    simp [hi, hm] at htwo
  · intro hkind
    simpa [hkind, or_iff_not_imp_left] using hbridged
  · intro hi
    simpa [hi] using hhostOnly

theorem PrivateNetwork.fits_of_rules {n : PrivateNetwork}
    (h : ∀ rule ∈ n.rules, rule.broken = false) : n.Fits := by
  simp only [rules, List.forall_mem_cons] at h
  obtain ⟨hnamed, hchanged, -⟩ := h
  constructor
  · intro hcommand
    exact isNamed_iff.1 (by simpa [hcommand] using hnamed)
  · intro hset
    simpa [hset, or_iff_not_imp_left, Option.isSome_iff_ne_none] using hchanged

theorem Server.fits_of_rules {s : Server} (h : ∀ rule ∈ s.rules, rule.broken = false) : s.Fits := by
  simp only [rules, List.forall_mem_cons] at h
  obtain ⟨hassignment, hdevice, hkeys, -⟩ := h
  constructor
  · cases hd : s.device <;> cases ho : s.settings.has .deviceOwner <;>
      simp [hd, ho] at hassignment hdevice ⊢
  · simpa using hkeys

/-- A list of networks may be of one of them. -/
theorem VirtualNetwork.rules_of_unnamed {n : VirtualNetwork} (hname : n.name = none)
    (h : ∀ rule ∈ n.rules, rule.broken = false) (name : String) :
    ∀ rule ∈ { n with name := some name }.rules, rule.broken = false := by
  simp only [rules, List.forall_mem_cons] at h ⊢
  obtain ⟨hnamed, hrest⟩ := h
  have hlist : (n.command != .list) = false := by simpa [hname, isNamed] using hnamed
  exact ⟨by rw [hlist]; rfl, hrest⟩

theorem PrivateNetwork.rules_of_unnamed {n : PrivateNetwork} (hname : n.name = none)
    (h : ∀ rule ∈ n.rules, rule.broken = false) (name : String) :
    ∀ rule ∈ { n with name := some name }.rules, rule.broken = false := by
  simp only [rules, List.forall_mem_cons] at h ⊢
  obtain ⟨hnamed, hrest⟩ := h
  have hlist : (n.command != .list) = false := by simpa [hname, isNamed] using hnamed
  exact ⟨by rw [hlist]; rfl, hrest⟩

end VmControl
