import VmControl.Reading
import VmControl.Record
import VmControl.Rule

/-!
# Consistency

The rules between several parts of a record, for each kind of command.  The rules for guests stand
on both sides of one change: paths that are relative to a directory of this host are made full.
-/

namespace VmControl

/-! ## Guests -/

namespace Record

/-- A machine has one source of its guest system. -/
def sourceRules (r : Record) : List Rule :=
  let machine := r.kind == .machine
  let config := r.hasText .config
  let template := r.hasText .osTemplate
  [⟨.configWithGuest, machine && config && r.guest.isSome⟩,
   ⟨.configWithTemplate, machine && config && template⟩,
   ⟨.templateWithGuest, machine && template && r.guest.isSome⟩]

/-- Whether a guest system is named that has no effect. -/
def ignoresGuest (r : Record) : Bool := r.kind == .container && r.guest.isSome

/-- Properties that only devices of some classes have. -/
def deviceKindRules (r : Record) : List Rule :=
  let d := r.device
  let mode := d.settings.get? .mode
  let is (k : DeviceKind) : Bool := d.kind == some k
  [⟨.diskMode, is .hdd && mode.any (· != .hddExpand)⟩,
   ⟨.modeBesideNetwork, is .net && mode.isSome && (d.text? .network).isSome⟩,
   ⟨.adapterMode, is .net && mode.any (· != .netRouted)⟩,
   ⟨.modeWithoutDevice, mode.isSome && !is .hdd && !is .net⟩,
   ⟨.outputUse, d.hasText .output && !is .serial && !is .parallel && !is .sound⟩,
   ⟨.socketUse, d.hasText .socket && !is .serial⟩,
   ⟨.mixerUse, d.hasText .mixer && !is .sound⟩]

/-- What a command of its own asks for. -/
def actionRules (r : Record) : List Rule :=
  match r.action with
  | .set => r.deviceKindRules
  | .register => [⟨.uuidKeptAndGiven, r.has .preserveUuid && r.hasText .uuid⟩]
  | _ => []

/-- Properties that need a device, and those that exclude each other. -/
def deviceUseRules (r : Record) : List Rule :=
  let d := r.device
  let disk := d.kind == some .fdd || d.kind == some .hdd
  let attaches := r.backupCommand == some .add
  [⟨.recreateUse, d.has .recreate && !disk⟩,
   ⟨.adapterMissing, d.command.isNone && d.adapter.isUpdated⟩,
   ⟨.deviceMissing, d.command.isNone && !attaches && d.isUpdated⟩,
   ⟨.networkWithInterface, d.hasText .network && d.hasText .interface⟩,
   ⟨.networkWithMode, d.hasText .network && d.settings.has .mode⟩]

/-- A direction belongs to a policy or to rules, and rules have a direction. -/
def firewallRules (r : Record) : List Rule :=
  let a := r.device.adapter
  let direction := a.settings.has .firewallDirection
  let policy := a.settings.has .firewallPolicy
  [⟨.directionAlone, direction && !policy && a.rules.isEmpty⟩,
   ⟨.directionMissing, !a.rules.isEmpty && !direction⟩]

/-- A backup that is attached stands for the device. -/
def backupRules (r : Record) : List Rule :=
  let d := r.device
  let attaches := r.backupCommand == some .add
  let disk := r.hasText .backupDisk
  let placed := d.settings.has .position && !d.hasText .interface
  [⟨.backupWithDevice, r.backupCommand.isSome && d.command.isSome⟩,
   ⟨.backupMissing, r.backupCommand.isNone && disk⟩,
   ⟨.backupDiskMissing, attaches && !disk && d.isUpdated⟩,
   ⟨.positionWithoutInterface, (d.command == some .add || attaches) && placed⟩]

/-- The rules that come before paths are made full. -/
def earlyRules (r : Record) : List Rule := r.sourceRules ++ r.actionRules

/-- The rules that come after it. -/
def lateRules (r : Record) : List Rule := r.deviceUseRules ++ r.firewallRules ++ r.backupRules

/-- A path in full.  No path at all and a full path stay; any other is resolved on this host, and
only if the command runs here. -/
def resolvePath (host : Host) (remote : Bool) (path : String) : Except CommandError String :=
  if path = "" ∨ path.toList.head? = some '/' then .ok path
  else if remote then .error (Violation.relativePath path).error
  else
    match host.fullPath path with
    | .ok full => .ok full
    | .error _ => .error (Violation.unresolvedPath path).error

/-- The record with the location of the guest in full. -/
def resolveLocation (host : Host) (r : Record) : Except CommandError Record :=
  match r.text? .location with
  | none => .ok r
  | some path => (resolvePath host r.login.isRemote path).map fun full =>
    r.set (.text .location) full

/-- The record with the image of the device in full. -/
def resolveImage (host : Host) (r : Record) : Except CommandError Record :=
  match r.device.text? .image with
  | none => .ok r
  | some path => (resolvePath host r.login.isRemote path).map fun full =>
    { r with device := r.device.set (.text .image) full }

/-- The record with its paths in full, if it keeps the rules. -/
def consistent (host : Host) (r : Record) : Except CommandError Record := do
  Rule.enforce r.earlyRules
  let r ← resolveLocation host r
  let r ← resolveImage host r
  Rule.enforce r.lateRules
  return r

/-- Makes the record consistent, and tells the user of a guest system that has no effect. -/
def settle (r : Record) : Reading Record := do
  if r.ignoresGuest then
    Reading.warn "prlctl::validate" "--distribution given for a container"
    Reading.write (.complaint
      "The options --distribution and --ostype are ignored when creating Containers.")
  Reading.ofExcept (r.consistent (← read))

end Record

/-! ## Other commands -/

/-- A source is copied or moved. -/
def Migration.rules (m : Migration) : List Rule :=
  [⟨.systemIdWithoutClone, m.changeSystemId && !m.clone⟩,
   ⟨.removalWithClone, m.removeSource && m.clone⟩]

/-- Whether a name is given that is not empty. -/
def isNamed (name : Option String) : Bool := name.any (· != "")

/-- A bridged network has one host adapter, and others have none. -/
def VirtualNetwork.rules (n : VirtualNetwork) : List Rule :=
  let kind := n.settings.get? .kind
  let ifName := (n.text? .ifName).isSome
  let mac := (n.text? .mac).isSome
  let hostOnly := kind == some .hostOnly || kind == some .shared
  [⟨.networkUnnamed, n.command != .list && !isNamed n.name⟩,
   ⟨.twoAdapters, ifName && mac⟩,
   ⟨.bridgedWithoutAdapter, kind == some .bridged && !ifName && !mac⟩,
   ⟨.adapterForHostOnly, ifName && hostOnly⟩]

/-- A private network is named, and a change changes something. -/
def PrivateNetwork.rules (n : PrivateNetwork) : List Rule :=
  [⟨.privateUnnamed, n.command != .list && !isNamed n.name⟩,
   ⟨.privateUnchanged,
     n.command == .set && n.addresses.isEmpty && n.removed.isEmpty && n.isGlobal.isNone⟩]

/-- Device and owner come together, and so do the keys of a pair. -/
def Server.rules (s : Server) : List Rule :=
  let owner := s.settings.has .deviceOwner
  [⟨.assignmentMissing, s.device.isSome && !owner⟩,
   ⟨.assignedDeviceMissing, s.device.isNone && owner⟩,
   ⟨.keyPairIncomplete, s.publicKey.isSome != s.privateKey.isSome⟩]

/-- A report goes somewhere. -/
def ProblemReport.rules (p : ProblemReport) : List Rule :=
  [⟨.reportWithoutAction, p.action.isNone⟩]

end VmControl
