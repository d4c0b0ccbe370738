import VmControl.Line.Backup
import VmControl.Line.Migration
import VmControl.Line.Network
import VmControl.Proofs.Safety.Setting

/-!
# Taking options by position

The options of all commands.  An option with a value that is cut or counted reads it by position;
any other option is left to the grammar.

## Main definitions

* `Guarded.guest`, `Guarded.making`, `Guarded.restoring`, `Guarded.deleting`, `Guarded.listing`,
  `Guarded.migration`, `Guarded.server`, `Guarded.virtualNetwork`, `Guarded.privateNetwork`: the
  grammars of the lines whose options have such values, none of which traps.
-/

namespace VmControl.Guarded

open Numeral Options Text

/-! ## One guest -/

/-- Takes an option that does nothing but enter its value. -/
def applyPure (d : Draft) (m : Match OptionId) : Guarded Draft :=
  let value := m.text
  match m.id with
  | .setting s => do
    let v ← readSetting s m.name value
    return d.mapRecord (·.set s v)
  | .device s => do
    let v ← readDeviceSetting s m.name value
    return d.mapRecord fun r => { r with device := r.device.set s v }
  | .backupAdd => do
    let id ← uuidOrVerbatim value
    return d.mapRecord fun r => { r with backupCommand := some .add, backupId := some id }
  | .backupDelete => do
    let id ← uuidOrVerbatim value
    return d.mapRecord fun r => { r with backupCommand := some .delete, backupId := some id }
  | .swapPages => do
    let limit ← readSwap 1 m.name value
    return d.mapRecord fun r => { r with resources := r.resources ++ [limit] }
  | .swap => do
    let limit ← readSwap pageSize m.name value
    return d.mapRecord fun r => { r with resources := r.resources ++ [limit] }
  | .quotaUgidLimit => do
    let limit ← readQuota m.name value
    return d.mapRecord fun r => { r with resources := r.resources ++ [limit] }
  | .capability => do
    let (outcome, mask) ← check (Checked.applyCapabilityList d.record.capabilities value)
    ofExcept (outcome.map fun _ => d.mapRecord fun r => { r with capabilities := mask })
  | .features => do
    let (outcome, features) ← check (Checked.applyFeatureList d.record.features value)
    ofExcept (outcome.map fun _ => d.mapRecord fun r => { r with features := features })
  | .rate => do
    let rate ← check (readRate value)
    let rate ← ofExcept (Setting.choose m.name value rate)
    return d.mapRecord fun r => { r with rates := r.rates ++ [rate] }
  | .expiration => do
    let expiration ← check (Checked.applyExpiration d.record.expiration value)
    let expiration ← ofExcept expiration
    return d.mapRecord fun r => { r with expiration := expiration }
  | .requirePassword => do
    let (name, rule) ← readPasswordRule PasswordRules.machineCommands m.name value
    return d.mapRecord fun r => { r with passwordRules := r.passwordRules.insert name rule }
  | .searchDomain => do
    let names ← splitNames value
    return d.mapAdapter fun a => { a with searchDomains := names }
  | .nameServer => do
    let names ← splitNames value
    return d.mapAdapter fun a => { a with nameServers := names }
  | .ipSet => do
    let address ← check (Checked.normalizeIp value)
    return d.mapAdapter fun a => { a with replace := true, addresses := a.addresses ++ [address] }
  | .ipAdd => do
    let address ← check (Checked.normalizeIp value)
    return d.mapAdapter fun a => { a with addresses := a.addresses ++ [address] }
  | .ipDelete => do
    if value = "all" then return d.mapAdapter fun a => { a with removeAll := true }
    let address ← check (Checked.normalizeIp value)
    return d.mapAdapter fun a => { a with removed := a.removed ++ [address] }
  | _ => ofExcept (d.applyPure m)

theorem applyPure_eq (d : Draft) (m : Match OptionId) :
    applyPure d m = ofExcept (d.applyPure m) := by
  unfold applyPure
  split <;> try rfl
  all_goals
    rename_i h
    simp only [Draft.applyPure, h, ofExcept_bind, ofExcept_pure, ofExcept_ok, check_ok, pure_bind,
      readSetting_eq, readDeviceSetting_eq, uuidOrVerbatim_eq, readSwap_one, readSwap_pageSize,
      readQuota_eq, Checked.applyCapabilityList_eq, Checked.applyFeatureList_eq, readRate_eq,
      Checked.applyExpiration_eq, readPasswordRule_eq, splitNames_eq, Checked.normalizeIp_eq]
  -- only the addresses to remove have two cases
  split <;> rfl

/-- Takes an option of the command. -/
def apply (m : Match OptionId) (d : Draft) : Guarded Draft := do
  if let some e := d.conflict? m.id then throw e
  match m.id with
  | .help => lift (d.apply m)
  | .osType => lift (d.apply m)
  | .distribution => lift (d.apply m)
  | .blockSize =>
    match ← check (Checked.digits word32 m.text.toList) with
    | some n => return d.mapRecord fun r => { r with blockSize := some n }
    | none =>
      lift (Reading.write
        (.complaint ("An invalid value was specified for --hdd-block-size: " ++ m.text)))
      return d
  | .setting s =>
    if s.isCredential then lift (Reading.wipe m.slot?)
    applyPure d m
  | _ => applyPure d m

theorem apply_eq (m : Match OptionId) (d : Draft) : apply m d = lift (d.apply m) := by
  unfold apply
  simp only [applyPure_eq, Checked.digits_eq, check_ok, pure_bind]
  cases hconflict : d.conflict? m.id with
  | some e =>
    simp only [Draft.apply, hconflict]
    rfl
  | none =>
    dsimp only
    split
    case h_1 | h_2 | h_3 => rfl
    case h_4 h =>
      rw [h] at hconflict
      simp only [Draft.apply, h, hconflict]
      cases digits word32 m.text.toList <;> rfl
    case h_5 s h =>
      rw [h] at hconflict
      simp only [Draft.apply, h, hconflict]
      cases s.isCredential with
      | false => rfl
      | true => exact (lift_bind ..).symm
    case h_6 =>
      simp only [Draft.apply, hconflict]
      rfl

/-- The lines about one guest. -/
def guest : Grammar Draft := ⟨Draft.grammar, apply, apply_eq⟩

/-! ## Backups -/

/-- Takes the host that keeps backups.  It is wiped from the line. -/
def takeBackupStorage (m : Match OptionId) (r : Record) : Guarded Record := do
  let login ← readLogin m
  return { r with backup := { r.backup with storage := r.backup.storage.assign login } }

theorem takeBackupStorage_eq (m : Match OptionId) (r : Record) :
    takeBackupStorage m r = lift (Backup.takeStorage m r) := by
  simp only [takeBackupStorage, readLogin_eq, Backup.takeStorage, lift_bind, lift_pure]

/-- Names the backup. -/
def takeBackupId (m : Match OptionId) (r : Record) : Guarded Record := do
  let id ← uuidOrVerbatim m.text
  return { r with backup := { r.backup with id := some id } }

theorem takeBackupId_eq (m : Match OptionId) (r : Record) :
    takeBackupId m r = lift (Backup.takeId m r) := by
  simp only [takeBackupId, uuidOrVerbatim_eq, pure_bind, Backup.takeId, lift_pure]

/-- Takes an option of backups as `take` does. -/
def takeBackupOption (take : Match OptionId → Record → Reading Record) (m : Match OptionId)
    (r : Record) : Guarded Record :=
  match m.id with
  | .storage => takeBackupStorage m r
  | _ => lift (take m r)

/-- Takes an option of kept backups as `take` does. -/
def takeKeptOption (take : Match OptionId → Record → Reading Record) (m : Match OptionId)
    (r : Record) : Guarded Record :=
  match m.id with
  | .backupId => takeBackupId m r
  | _ => takeBackupOption take m r

section Backups

variable {take : Match OptionId → Record → Reading Record} {m : Match OptionId} {r : Record}

theorem takeBackupOption_eq (hstorage : m.id = .storage → take m r = Backup.takeStorage m r) :
    takeBackupOption take m r = lift (take m r) := by
  unfold takeBackupOption
  split
  · next h => rw [takeBackupStorage_eq, hstorage h]
  · rfl

theorem takeKeptOption_eq (hid : m.id = .backupId → take m r = Backup.takeId m r)
    (hstorage : m.id = .storage → take m r = Backup.takeStorage m r) :
    takeKeptOption take m r = lift (take m r) := by
  unfold takeKeptOption
  split
  · next h => rw [takeBackupId_eq, hid h]
  · exact takeBackupOption_eq hstorage

end Backups

/-- Making backups. -/
def making : Grammar Record where
  grammar := Backup.makingGrammar
  option := takeBackupOption Backup.takeMakingOption
  option_eq m r := takeBackupOption_eq fun h => by simp only [Backup.takeMakingOption, h]

/-- Restoring backups. -/
def restoring : Grammar Record where
  grammar := Backup.restoringGrammar
  option := takeKeptOption Backup.takeRestoringOption
  option_eq m r := takeKeptOption_eq (fun h => by simp only [Backup.takeRestoringOption, h])
    fun h => by simp only [Backup.takeRestoringOption, h]

/-- Deleting backups. -/
def deleting : Grammar Record where
  grammar := Backup.deletingGrammar
  option := takeKeptOption Backup.takeDeletingOption
  option_eq m r := takeKeptOption_eq (fun h => by simp only [Backup.takeDeletingOption, h])
    fun h => by simp only [Backup.takeDeletingOption, h]

/-- Listing backups. -/
def listing : Grammar Record where
  grammar := Backup.listingGrammar
  option := takeKeptOption Backup.takeListingOption
  option_eq m r := takeKeptOption_eq (fun h => by simp only [Backup.takeListingOption, h])
    fun h => by simp only [Backup.takeListingOption, h]

/-! ## Migrations -/

/-- Takes an option of migrations. -/
def takeMigrationOption (m : Match OptionId) (r : Record) : Guarded Record :=
  match m.id with
  | .shellOptions => do
    let words ← check (Checked.split (· == ' ') false m.text.toList)
    return { r with migration := { r.migration with shellOptions := words.map String.ofList } }
  | _ => lift (Migration.takeOption m r)

theorem takeMigrationOption_eq (m : Match OptionId) (r : Record) :
    takeMigrationOption m r = lift (Migration.takeOption m r) := by
  unfold takeMigrationOption
  split
  · next h =>
    simp only [Checked.split_eq_words, check_ok, pure_bind, Migration.takeOption, h, lift_pure]
  · rfl

/-- Migrating a guest. -/
def migration : Grammar Record := ⟨Migration.grammar, takeMigrationOption, takeMigrationOption_eq⟩

/-! ## The server -/

/-- The value of a setting of the server. -/
def readServerSetting (s : ServerSetting) (option value : String) : Guarded s.Value :=
  match s with
  | .memoryLimit => do
    if value = "auto" then return MemoryLimit.auto
    let size ← check (Checked.readSize .mebibytes value)
    ofExcept (Setting.choose option value (size.map .mebibytes))
  | .backupTimeout => do
    let n ← check (Checked.digits word32 value.toList)
    ofExcept (Setting.choose option value n)
  | s => ofExcept (s.read option value)

theorem readServerSetting_eq (s : ServerSetting) (option value : String) :
    readServerSetting s option value = ofExcept (s.read option value) := by
  unfold readServerSetting
  split
  · simp only [Checked.readSize_eq, check_ok, pure_bind, ServerSetting.read, MemoryLimit.read?]
    split <;> rfl
  · rw [Checked.digits_eq]
    rfl
  · rfl

/-- Takes an option of the server. -/
def takeServerOption (m : Match OptionId) (r : Record) : Guarded Record :=
  let put (server : Server) : Guarded Record := return { r with server := server }
  match m.id with
  | .server s => do
    let v ← readServerSetting s m.name m.text
    put (r.server.set s v)
  | .storage => do
    let login ← readLogin m
    let storage := (r.server.backupStorage.getD ∅).assign login
    put { r.server with backupStorage := some storage }
  | .requirePassword => do
    let (name, rule) ← readPasswordRule PasswordRules.serverCommands m.name m.text
    return { r with passwordRules := r.passwordRules.insert name rule }
  | _ => lift (Server.takeOption m r)

theorem takeServerOption_eq (m : Match OptionId) (r : Record) :
    takeServerOption m r = lift (Server.takeOption m r) := by
  unfold takeServerOption
  split
  · next s h =>
    simp only [readServerSetting_eq, Server.takeOption, h, lift_bind, lift_pure]
    rfl
  · next h =>
    simp only [readLogin_eq, Server.takeOption, h, Server.takeStorage, lift_bind, lift_pure,
      bind_assoc, pure_bind]
  · next h =>
    simp only [readPasswordRule_eq, Server.takeOption, h, lift_bind, lift_pure]
    rfl
  · rfl

/-- The server. -/
def server : Grammar Record := ⟨Server.grammar, takeServerOption, takeServerOption_eq⟩

/-! ## Networks -/

/-- The value of a setting of a virtual network. -/
def readNetworkSetting (s : NetworkSetting) (option value : String) : Guarded s.Value :=
  match s with
  | .text .hostIp => check (Checked.normalizeIp value)
  | .text .hostIp6 => check (Checked.normalizeIp value)
  | s => ofExcept (s.read option value)

theorem readNetworkSetting_eq (s : NetworkSetting) (option value : String) :
    readNetworkSetting s option value = ofExcept (s.read option value) := by
  unfold readNetworkSetting
  split
  case h_1 | h_2 =>
    rw [Checked.normalizeIp_eq]
    rfl
  · rfl

/-- Takes an option of virtual networks. -/
def takeVirtualOption (m : Match OptionId) (r : Record) : Guarded Record :=
  match m.id with
  | .network s => do
    let v ← readNetworkSetting s m.name m.text
    return { r with network := r.network.set s v }
  | _ => lift (VirtualNetwork.takeOption m r)

theorem takeVirtualOption_eq (m : Match OptionId) (r : Record) :
    takeVirtualOption m r = lift (VirtualNetwork.takeOption m r) := by
  unfold takeVirtualOption
  split
  · next s h =>
    simp only [readNetworkSetting_eq, VirtualNetwork.takeOption, h, lift_bind, lift_pure]
    rfl
  · rfl

/-- Virtual networks. -/
def virtualNetwork : Grammar Record :=
  ⟨VirtualNetwork.grammar, takeVirtualOption, takeVirtualOption_eq⟩

/-- An address as private networks keep it. -/
def keptAddress (value : String) : Guarded String :=
  if value = "*" then return value else check (Checked.normalizeIp value)

@[simp] theorem keptAddress_eq (value : String) :
    keptAddress value = pure (PrivateNetwork.keptAddress value) := by
  unfold keptAddress PrivateNetwork.keptAddress
  rw [Checked.normalizeIp_eq]
  split <;> rfl

/-- Takes an option of private networks. -/
def takePrivateOption (m : Match OptionId) (r : Record) : Guarded Record :=
  let network := r.privateNetwork
  match m.id with
  | .privateAdd => do
    let address ← keptAddress m.text
    return { r with privateNetwork := { network with addresses := network.addresses ++ [address] } }
  | .privateDelete => do
    let address ← keptAddress m.text
    return { r with privateNetwork := { network with removed := network.removed ++ [address] } }
  | _ => lift (PrivateNetwork.takeOption m r)

theorem takePrivateOption_eq (m : Match OptionId) (r : Record) :
    takePrivateOption m r = lift (PrivateNetwork.takeOption m r) := by
  unfold takePrivateOption
  split
  case h_1 h | h_2 h =>
    simp only [keptAddress_eq, pure_bind, PrivateNetwork.takeOption, h, lift_pure]
  · rfl

/-- Private networks. -/
def privateNetwork : Grammar Record :=
  ⟨PrivateNetwork.grammar, takePrivateOption, takePrivateOption_eq⟩

end VmControl.Guarded
