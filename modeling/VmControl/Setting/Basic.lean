import VmControl.Error
import VmControl.Secret
import VmControl.Setting.Choice
import VmControl.Sheet
import VmControl.Value.Address
import VmControl.Value.Size
import VmControl.Value.Toggle

/-!
# Settings

The settings of a guest that one option each decides, the last mention of it counting.  Every
setting has a type of values, a reader for the text that the user gives, and the error for a text
that is no value; `Setting.read` joins the three.  A sheet over these keys is what a line of such
options comes to.
-/

namespace VmControl

open Numeral

/-- The error for a text that is no value of the option. -/
def refuseValue (option value : String) : CommandError := .badValue option value

/-! ## Marks: options without a value -/

/-- Settings that are there or not. -/
inductive Mark where
  | fast
  | acpi
  | force
  | noForce
  | wait
  | withoutShell
  | json
  | fullInfo
  | listAll
  | listNoHeader
  | listStopped
  | listName
  | listInfo
  | listAllFields
  | noDisk
  | lionRecovery
  | ignoreHaCluster
  | preserveUuid
  | regenerateSourceUuid
  | template
  | changeSystemId
  | linkedClone
  | mountInfo
  | snapshotWait
  | snapshotSkipResume
  | snapshotTree
  | snapshotChildren
  | renameExternalDisks
  | restrictEditing
  | vncNoPassword
  | crypted
  deriving DecidableEq, Repr

/-! ## Texts -/

/-- Settings that hold a text. -/
inductive TextSetting where
  | file
  | listFields
  | listSort
  | config
  | location
  | osTemplate
  | uuid
  | newName
  | userName
  | defaultVmHome
  | snapshotId
  | snapshotName
  | snapshotDescription
  | cpuMask
  | nodeMask
  | description
  | name
  | systemFlags
  | startupView
  | onShutdown
  | onWindowClose
  | externalBootDevice
  | vncAddress
  | hostName
  | backupDisk
  deriving DecidableEq, Repr

/-- Reads a location, which does not start with a dot. -/
def readLocation (option value : String) : Except CommandError String :=
  if value.toList.head? = some '.' then .error (.refused (.relativeLocation option))
  else .ok value

/-- Reads a text.  Most are taken as they stand. -/
def TextSetting.read (t : TextSetting) (option value : String) : Except CommandError String :=
  match t with
  | .location => readLocation option value
  | .uuid =>
    match normalizeUuid value with
    | some u => .ok u
    | none => .error (.refused (.invalidValue "--uuid" value))
  | .snapshotId => .ok (uuidOrVerbatim value)
  | _ => .ok value

/-! ## Switches -/

/-- Settings that are on or off. -/
inductive Switch where
  | cpuHotplug
  | memoryHotplug
  | isTemplate
  | highResolution
  | stickyMouse
  | keyboardOptimize
  | autoShareCamera
  | autoShareBluetooth
  | supportUsb30
  | efiBoot
  | selectBootDevice
  | fasterVm
  | adaptiveHypervisor
  | autoCompress
  | nestedVirtualization
  | pmuVirtualization
  | longerBatteryLife
  | batteryStatus
  | systrayInMacMenu
  | autoSwitchFullscreen
  | disableAero
  | hideMinimizedWindows
  | lockOnSuspend
  | isolateVm
  | smartGuard
  | guardNotifyBeforeCreate
  | lockEditSettings
  | rateBound
  | offlineManagement
  | verticalSync
  | syncHostPrinters
  | syncDefaultPrinter
  | applyIpOnly
  | useDefaultAnswers
  | toolsAutoUpdate
  | smartMount
  | detachExternalDisks
  | autoCompact
  | highAvailability
  deriving DecidableEq, Repr

namespace Switch

/-- Whether the switch takes `on` and `off` only. -/
def isStrict : Switch → Bool
  | .verticalSync => true
  | .syncHostPrinters => true
  | .syncDefaultPrinter => true
  | _ => false

/-- The error for a word that is neither on nor off. -/
def refuse (s : Switch) (option value : String) : CommandError :=
  match s with
  | .applyIpOnly => .refused (.invalidValue option value)
  | .useDefaultAnswers => .refused (.invalidValue option value)
  | .toolsAutoUpdate => .refused (.invalidValue option value)
  | .smartMount => .refused (.invalidValue option value)
  | .highAvailability => .refused (.highAvailability "--ha-enable" value)
  | _ => refuseValue option value

/-- Reads the position of a switch. -/
def read (s : Switch) (option value : String) : Except CommandError Bool :=
  match if s.isStrict then Toggle.readStrict value else Toggle.read value with
  | some b => .ok b
  | none => .error (s.refuse option value)

end Switch

/-! ## Numbers -/

/-- Settings that hold a 32-bit number. -/
inductive CountSetting where
  | cpus
  | cpuUnits
  | ioPriority
  | iopsLimit
  | autostartDelay
  | guardInterval
  | guardMaxSnapshots
  | vncPort
  | haPriority
  deriving DecidableEq, Repr

namespace CountSetting

/-- Whether the setting can hold the number. -/
def admits (c : CountSetting) (n : Nat) : Bool :=
  match c with
  | .cpuUnits => 0 < n
  | .ioPriority => n ≤ 7
  | _ => true

/-- Reads a number of digits alone. -/
def read (c : CountSetting) (option value : String) : Except CommandError Nat :=
  match (digits word32 value.toList).filter c.admits with
  | some n => .ok n
  | none =>
    .error (if c = .haPriority then .refused (.highAvailability "--ha-prio" value)
      else refuseValue option value)

end CountSetting

/-- Settings that hold a size. -/
inductive SizeSetting where
  /-- Main memory, in mebibytes. -/
  | memory
  /-- Video memory, in mebibytes. -/
  | video
  /-- Disk traffic, in bytes a second. -/
  | io
  deriving DecidableEq, Repr

/-- Reads a size.  Memory is never empty. -/
def SizeSetting.read (s : SizeSetting) (option value : String) : Except CommandError Nat :=
  let size := match s with
    | .io => readSize .bytes value
    | _ => (readSize .mebibytes value).filter (0 < ·)
  match size with
  | some n => .ok n
  | none => .error (refuseValue option value)

/-! ## Secrets -/

/-- Settings that hold a credential. -/
inductive SecretSetting where
  /-- The password that a user is authenticated with. -/
  | userPassword
  /-- The password of the screen server. -/
  | vncPassword
  /-- A user of the guest and the new password, with a colon between them. -/
  | guestPassword
  /-- The administrator of the host. -/
  | hostAdmin
  deriving DecidableEq, Repr

/-- Reads a credential.  Its text does not show in an error. -/
def SecretSetting.read (s : SecretSetting) (option value : String) : Except CommandError Secret :=
  if s = .guestPassword ∧ ':' ∉ value.toList then .error (.badSecret option)
  else .ok ⟨value⟩

/-! ## All settings -/

/-- A setting of a guest. -/
inductive Setting where
  | mark (m : Mark)
  | text (t : TextSetting)
  | switch (s : Switch)
  | count (c : CountSetting)
  | size (s : SizeSetting)
  | secret (s : SecretSetting)
  | cpuLimit
  | memoryGuarantee
  | netfilter
  | autostart
  | autostop
  | acceleration
  | mouseMode
  | vncMode
  | mountMode
  deriving DecidableEq, Repr

namespace Setting

/-- The values of a setting. -/
abbrev Value : Setting → Type
  | .mark _ => Unit
  | .text _ => String
  | .switch _ => Bool
  | .count _ => Nat
  | .size _ => Nat
  | .secret _ => Secret
  | .cpuLimit => CpuLimit
  | .memoryGuarantee => MemoryGuarantee
  | .netfilter => NetfilterMode
  | .autostart => Autostart
  | .autostop => Autostop
  | .acceleration => Acceleration
  | .mouseMode => MouseMode
  | .vncMode => VncMode
  | .mountMode => MountMode

/-- Whether the value is a credential, to be wiped from the line that it was given on. -/
def isCredential : Setting → Bool
  | .secret _ => true
  | _ => false

/-- The value that a word selects, or an error that names the option. -/
def choose {α : Type} (option value : String) : Option α → Except CommandError α
  | some v => .ok v
  | none => .error (refuseValue option value)

/-- Reads the value of a setting from the text that follows the option. -/
def read (s : Setting) (option value : String) : Except CommandError s.Value :=
  match s with
  | .mark _ => .ok ()
  | .text t => t.read option value
  | .switch s => s.read option value
  | .count c => c.read option value
  | .size s => s.read option value
  | .secret s => s.read option value
  | .cpuLimit => choose option value (CpuLimit.read value)
  | .memoryGuarantee => choose option value (MemoryGuarantee.read? value)
  | .netfilter =>
    match NetfilterMode.read? value with
    | some m => .ok m
    | none => .error (.refused (.netfilter value))
  | .autostart => choose option value (Autostart.read? value)
  | .autostop => choose option value (Autostop.read? value)
  | .acceleration => choose option value (Acceleration.read? value)
  | .mouseMode => choose option value (MouseMode.read? value)
  | .vncMode => choose option value (VncMode.read? value)
  | .mountMode =>
    match MountMode.read? value with
    | some m => .ok m
    | none => .error (.refused (.mountOption value))

end Setting

/-- The settings of a guest that were given. -/
abbrev Settings := Sheet Setting.Value

end VmControl
