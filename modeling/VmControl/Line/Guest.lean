import VmControl.Line.Basic

/-!
# Lines about one guest

The line of most commands: the guest, and options for its settings and at most one of its devices.
The network settings of a guest are kept apart until the line has ended, since the device that they
are for may be named after them.  A command that is run inside the guest starts with the first
argument that is no option, and nothing after that is read.
-/

namespace VmControl

open Numeral Options Text

/-- What was read of a line so far. -/
structure Draft where
  /-- The record without the settings of an adapter. -/
  record : Record
  /-- The settings of an adapter. -/
  adapter : Adapter
  /-- What is to become of the images of removed disks, as often as it was told. -/
  imageFates : List ImageFate

namespace Draft

/-! ## Options that exclude each other -/

/-- The reason why an option cannot follow what was read so far. -/
def conflict? (d : Draft) (id : OptionId) : Option CommandError :=
  let device := d.record.device
  match id with
  | .selector .add =>
    if device.command.isSome then some (.refused (.repeatedDevice "--device-add")) else none
  | .selector .set =>
    if device.command.isSome then some (.refused (.repeatedDevice "--device-set")) else none
  | .device (.text .device) =>
    if device.hasText .image then some (.conflict "--device" "--image") else none
  | .device (.text .image) =>
    if device.hasText .device then some (.conflict "--device" "--image") else none
  | .device (.mark .enable) =>
    if device.has .disable then some (.conflict "--enable" "--disable") else none
  | .device (.mark .disable) =>
    if device.has .enable then some (.conflict "--enable" "--disable") else none
  | .device (.mark .connect) =>
    if device.has .disconnect then some (.conflict "--connect" "--disconnect") else none
  | .device (.mark .disconnect) =>
    if device.has .connect then some (.conflict "--disconnect" "--connect") else none
  | .backupAdd =>
    if d.record.backupCommand.isSome then some (.refused .repeatedBackup) else none
  | .backupDelete =>
    if d.record.backupCommand.isSome then some (.refused .repeatedBackup) else none
  | _ => none

/-! ## Devices -/

/-- The name of a device.  The adapter that every container has goes by its number. -/
def deviceName (name : String) : String := if name = "venet0" then "net4294967295" else name

/-- The class of a device by its name, which is a class with a number. -/
def kindOfName? (name : String) : Option DeviceKind :=
  DeviceKind.read? (String.ofList (name.toList.takeWhile fun c => !c.isDigit))

/-- Selects the device. -/
def select (d : Draft) (s : Selector) (value : String) : Except CommandError Draft :=
  let device := d.record.device
  let put (device : Device) : Draft := { d with record := { d.record with device := device } }
  let putAdapter (device : Device) : Draft :=
    { put device with adapter := { d.adapter with ifName := some value } }
  match s with
  | .add =>
    match DeviceKind.read? value with
    | none => .error (.refused (.deviceKind "--device-add" value))
    | some kind => .ok (put { device with command := some .add, kind := some kind })
  | .addAdapter => .ok (putAdapter { device with command := some .add, kind := some .net })
  | .set =>
    let name := deviceName value
    match kindOfName? name with
    | none => .error (.refused (.deviceKind "--device-set" name))
    | some kind =>
      .ok (put { device with command := some .set, kind := some kind, name := some name })
  | .setAdapter =>
    .ok (putAdapter { device with command := some .set, kind := some .net, name := some value })
  | .delete =>
    .ok (put { device with command := some .delete, name := some (deviceName value) })
  | .deleteAdapter =>
    .ok (put { device with command := some .delete, kind := some .net, name := some value })
  | .connect => .ok (put { device with command := some .connect, name := some value })
  | .disconnect => .ok (put { device with command := some .disconnect, name := some value })
  | .bootOrder => .ok (put { device with command := some .bootOrder, name := some value })

/-! ## Options -/

/-- Changes the record. -/
def mapRecord (f : Record → Record) (d : Draft) : Draft := { d with record := f d.record }

/-- Changes the settings of the adapter. -/
def mapAdapter (f : Adapter → Adapter) (d : Draft) : Draft := { d with adapter := f d.adapter }

/-- Tells which guest systems there are, and ends the line: as `listed` says if the user asked for
them, and otherwise as turned down. -/
def showGuests (option value : String) (guests : List Guest) (listed : CommandError) :
    Reading Draft := do
  let asked := value == "list"
  if !asked then
    Reading.write (.complaint ("An incorrect value for " ++ option ++ " is specified: " ++ value))
  Reading.write (.output ("The following values are allowed: " ++ Guest.listing guests))
  throw (if asked then listed else .reported)

/-- Names between commas or spaces. -/
def splitNames (value : String) : List String :=
  (words (fun c => c == ' ' || c == ',') value.toList).map String.ofList

/-- Takes an option that does nothing but enter its value. -/
def applyPure (d : Draft) (m : Match OptionId) : Except CommandError Draft :=
  let value := m.text
  match m.id with
  | .setting s => do
    let v ← s.read m.name value
    return d.mapRecord (·.set s v)
  | .selector s => d.select s value
  | .device s => do
    let v ← s.read m.name value
    return d.mapRecord fun r => { r with device := r.device.set s v }
  | .adapter s => do
    let v ← s.read m.name value
    return d.mapAdapter (·.set s v)
  | .imageFate fate => .ok { d with imageFates := d.imageFates ++ [fate] }
  | .backupAdd => .ok (d.mapRecord fun r =>
      { r with backupCommand := some .add, backupId := some (uuidOrVerbatim value) })
  | .backupDelete => .ok (d.mapRecord fun r =>
      { r with backupCommand := some .delete, backupId := some (uuidOrVerbatim value) })
  | .guestKind => do
    let listing := d.record.action == .list || d.record.action == .backupList
    let kind ← Setting.choose m.name value (GuestKind.read? listing value)
    return d.mapRecord fun r => { r with kind := kind }
  | .onlineClone => .ok d
  | .memoryQuota => .error (.refused .memoryQuota)
  | .swapPages => do
    let limit ← ResourceLimit.readSwapPages m.name value
    return d.mapRecord fun r => { r with resources := r.resources ++ [limit] }
  | .swap => do
    let limit ← ResourceLimit.readSwap m.name value
    return d.mapRecord fun r => { r with resources := r.resources ++ [limit] }
  | .quotaUgidLimit => do
    let limit ← ResourceLimit.readQuota m.name value
    return d.mapRecord fun r => { r with resources := r.resources ++ [limit] }
  | .capability =>
    let (outcome, mask) := d.record.capabilities.apply value
    outcome.map fun _ => d.mapRecord fun r => { r with capabilities := mask }
  | .features =>
    let (outcome, features) := d.record.features.apply value
    outcome.map fun _ => d.mapRecord fun r => { r with features := features }
  | .appTemplate => .ok (d.mapRecord fun r => { r with appTemplates := r.appTemplates ++ [value] })
  | .rate => do
    let rate ← Setting.choose m.name value (ClassRate.read? value)
    return d.mapRecord fun r => { r with rates := r.rates ++ [rate] }
  | .expiration => do
    let expiration ← d.record.expiration.apply value
    return d.mapRecord fun r => { r with expiration := expiration }
  | .requirePassword => do
    let (name, rule) ← PasswordRules.read PasswordRules.machineCommands m.name value
    return d.mapRecord fun r => { r with passwordRules := r.passwordRules.insert name rule }
  | .offlineService =>
    .ok (d.mapRecord fun r => { r with offlineServices := r.offlineServices ++ [value] })
  | .searchDomain => .ok (d.mapAdapter fun a => { a with searchDomains := splitNames value })
  | .nameServer => .ok (d.mapAdapter fun a => { a with nameServers := splitNames value })
  | .ipSet => .ok (d.mapAdapter fun a =>
      { a with replace := true, addresses := a.addresses ++ [normalizeIp value] })
  | .ipAdd => .ok (d.mapAdapter fun a => { a with addresses := a.addresses ++ [normalizeIp value] })
  | .ipDelete =>
    if value = "all" then .ok (d.mapAdapter fun a => { a with removeAll := true })
    else .ok (d.mapAdapter fun a => { a with removed := a.removed ++ [normalizeIp value] })
  | .firewallRule => do
    let rule ← FirewallRule.read value
    return d.mapAdapter fun a => { a with rules := a.rules ++ [rule] }
  | _ => .error (.refused (.unhandled m.name))

/-- Takes an option of the command. -/
def apply (m : Match OptionId) (d : Draft) : Reading Draft := do
  if let some e := d.conflict? m.id then throw e
  match m.id with
  | .help => throw (.exit 0)
  | .osType =>
    match Guest.findType? m.text with
    | some guest => return d.mapRecord fun r => { r with guest := some guest }
    | none => showGuests "--ostype" m.text Guest.types .reported
  | .distribution =>
    match Guest.findVersion? m.text with
    | some guest => return d.mapRecord fun r => { r with guest := some guest }
    | none => showGuests "--distribution" m.text Guest.versions (.exit 0)
  | .blockSize =>
    match digits word32 m.text.toList with
    | some n => return d.mapRecord fun r => { r with blockSize := some n }
    | none =>
      Reading.write
        (.complaint ("An invalid value was specified for --hdd-block-size: " ++ m.text))
      return d
  | .setting s =>
    if s.isCredential then Reading.wipe m.slot?
    Reading.ofExcept (d.applyPure m)
  | _ => Reading.ofExcept (d.applyPure m)

/-! ## Arguments -/

/-- Takes an argument that is no option. -/
def takeArgument (_ : Nat) (token : String) (d : Draft) : Reading Draft :=
  match d.record.action with
  | .list => return d.mapRecord fun r => { r with target := some token }
  | .register => return d.mapRecord (·.set (.text .location) token)
  | _ => throw (.unrecognized token)

/-- How lines about a guest are taken. -/
def grammar : Grammar Draft where
  mapLogin f d := d.mapRecord fun r => { r with login := f r.login }
  argument := takeArgument
  option := apply

/-! ## The end of the line -/

/-- The fate of the images, which is told one way only. -/
def settleImageFate (d : Draft) : Except CommandError Draft :=
  match d.imageFates with
  | [] => .ok d
  | fate :: fates =>
    if fates.any (· != fate) then .error (.refused .severalImageFates)
    else .ok (d.mapRecord fun r => { r with imageFate := fate })

/-- The settings of disk images go to the device if that is a disk. -/
def settleDisk (r : Record) : Record :=
  if r.device.kind = some .hdd then
    let autoCompact := r.settings.get? (.switch .autoCompact)
    { r with
      settings := r.settings.erase (.switch .autoCompact)
      device := { r.device with
        blockSize := r.blockSize.orElse fun _ => r.device.blockSize
        autoCompact := autoCompact.orElse fun _ => r.device.autoCompact } }
  else r

/-- A size without a device is that of the first disk. -/
def settleSize (r : Record) : Record :=
  if r.device.settings.has .size && r.device.kind.isNone then
    { r with device := { r.device with
        name := some "hdd0", kind := some .hdd, command := some .set } }
  else r

/-- The settings of an adapter go to the device, and name servers and search domains to the guest
if that is no adapter.  Without a device they are for the first adapter. -/
def settleAdapter (d : Draft) : Record :=
  let r := d.record
  let isAdapter := r.device.kind == some .net
  let adapter :=
    if isAdapter then d.adapter else { d.adapter with searchDomains := [], nameServers := [] }
  let r := if isAdapter then r else
    { r with searchDomains := d.adapter.searchDomains, nameServers := d.adapter.nameServers }
  let device := { r.device with adapter := adapter }
  let device := if adapter.isUpdated && device.kind.isNone then
      { device with kind := some .net, command := some .set }
    else device
  { r with device := device }

/-- The record of a line that has ended. -/
def finish (d : Draft) : Except CommandError Record := do
  let d ← d.settleImageFate
  return (d.mapRecord (settleSize ∘ settleDisk)).settleAdapter

end Draft

/-! ## Whole lines -/

/-- Whether the first argument of the command is its guest. -/
def Action.takesTarget : Action → Bool
  | .list => false
  | .register => false
  | .serverUserList => false
  | .serverUserSet => false
  | _ => true

/-- Whether the line ends in a command that is run inside the guest. -/
def Action.takesGuestCommand : Action → Bool
  | .exec => true
  | .internal => true
  | _ => false

/-- The events before the first argument that is no option, and the position of that argument. -/
def splitGuestCommand : List (Event OptionId) → List (Event OptionId) × Option Nat
  | [] => ([], none)
  | .unknown index _ :: _ => ([], some index)
  | .option m :: events =>
    let (options, index) := splitGuestCommand events
    (.option m :: options, index)

/-- Reads a line about a guest from the argument at `offset` on. -/
def readGuestLine (action : Action) (table : CommandTable) (offset : Nat) (args : List String) :
    Reading Record := do
  let record := Record.ofAction action
  let target := if action.takesTarget then args[offset]? else none
  let draft : Draft := ⟨{ record with target := target }, ∅, []⟩
  let stream := table.read args (offset + 1)
  match if action.takesGuestCommand then (splitGuestCommand stream.events).2 else none with
  | some index =>
    let draft ← Draft.grammar.steps draft (splitGuestCommand stream.events).1
    return { draft.record with argv := args.drop index }
  | none =>
    let draft ← Draft.grammar.read draft stream
    let record ← Reading.ofExcept draft.finish
    record.settle

end VmControl
