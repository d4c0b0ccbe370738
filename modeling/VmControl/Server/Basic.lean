import VmControl.Login
import VmControl.Server.Traffic
import VmControl.Setting.Basic

/-!
# Server settings

The settings of the server itself, and the commands that it asks a password for.
-/

namespace VmControl

open Numeral

/-- How much memory the server may give to guests. -/
inductive MemoryLimit where
  | auto
  /-- So many mebibytes. -/
  | mebibytes (n : Nat)
  deriving DecidableEq, Repr

/-- Reads the memory limit. -/
def MemoryLimit.read? (s : String) : Option MemoryLimit :=
  if s = "auto" then some .auto else (readSize .mebibytes s).map .mebibytes

/-- Who owns a host device. -/
inductive DeviceOwner where
  | host
  | machine
  deriving DecidableEq, Repr

/-- Reads who owns a device. -/
def DeviceOwner.read? : String → Option DeviceOwner
  | "host" => some .host
  | "vm" => some .machine
  | _ => none

/-- Who may manage the server. -/
inductive SecurityMode where
  | noAdvancedAuth
  | systemCredentials
  deriving DecidableEq, Repr

/-- Reads the security mode; the start of the word decides. -/
def SecurityMode.read? (s : String) : Option SecurityMode :=
  if "off".toList.isPrefixOf s.toList then some .noAdvancedAuth
  else if "auth".toList.isPrefixOf s.toList then some .systemCredentials
  else none

/-- What a processor limit applies to. -/
inductive CpuLimitScope where
  | full
  | guest
  deriving DecidableEq, Repr

/-- Reads what a processor limit applies to. -/
def CpuLimitScope.read? : String → Option CpuLimitScope
  | "full" => some .full
  | "guest" => some .guest
  | _ => none

/-- Reads whether users may change the settings. -/
def readPermission : String → Option Bool
  | "allow" => some true
  | "deny" => some false
  | _ => none

/-- Server settings that hold a text. -/
inductive ServerText where
  | minSecurityLevel
  | backupPath
  | backupTmpdir
  | listenInterface
  | cpuFeaturesMask
  deriving DecidableEq, Repr

/-- Server settings that are on or off. -/
inductive ServerSwitch where
  | cep
  | shaping
  | verboseLog
  | logRotation
  | allowAttachScreenshots
  deriving DecidableEq, Repr

/-- The error for a word that is neither on nor off. -/
def ServerSwitch.refuse (s : ServerSwitch) (option value : String) : CommandError :=
  match s with
  | .cep => .refused (.invalidValue "--cep" value)
  | .shaping => .refused (.invalidValue "--shaping" value)
  | _ => refuseValue option value

/-- Server settings that are there or not. -/
inductive ServerMark where
  | suspendToMemory
  | licenseInfo
  deriving DecidableEq, Repr

/-- A setting of the server that one option decides. -/
inductive ServerSetting where
  | mark (m : ServerMark)
  | text (t : ServerText)
  | switch (s : ServerSwitch)
  | memoryLimit
  | management
  | backupTimeout
  | cpuLimitScope
  | securityMode
  | deviceOwner
  deriving DecidableEq, Repr

namespace ServerSetting

/-- The values of a server setting. -/
abbrev Value : ServerSetting → Type
  | .mark _ => Unit
  | .text _ => String
  | .switch _ => Bool
  | .memoryLimit => MemoryLimit
  | .management => Bool
  | .backupTimeout => Nat
  | .cpuLimitScope => CpuLimitScope
  | .securityMode => SecurityMode
  | .deviceOwner => DeviceOwner

/-- Reads the value of a server setting. -/
def read (s : ServerSetting) (option value : String) : Except CommandError s.Value :=
  match s with
  | .mark _ => .ok ()
  | .text _ => .ok value
  | .switch s =>
    match Toggle.read value with
    | some b => .ok b
    | none => .error (s.refuse option value)
  | .memoryLimit => Setting.choose option value (MemoryLimit.read? value)
  | .management => Setting.choose option value (readPermission value)
  | .backupTimeout => Setting.choose option value (digits word32 value.toList)
  | .cpuLimitScope => Setting.choose option value (CpuLimitScope.read? value)
  | .securityMode => Setting.choose option value (SecurityMode.read? value)
  | .deviceOwner => Setting.choose option value (DeviceOwner.read? value)

end ServerSetting

/-- The settings of the server that were given. -/
structure Server where
  /-- Those that one option each decides. -/
  settings : Sheet ServerSetting.Value
  /-- Whether checks are skipped. -/
  force : Bool
  /-- The host device that gets another owner. -/
  device : Option String
  /-- The host that keeps backups, if another is chosen. -/
  backupStorage : Option Login
  /-- The offline service to add or remove. -/
  offlineService : Option OfflineService
  /-- The network class to add or remove. -/
  networkClass : Option NetworkClass
  /-- The shaping entry to add or remove. -/
  shapingEntry : Option ShapingEntry
  /-- The bandwidth entry to add or remove. -/
  bandwidthEntry : Option BandwidthEntry
  /-- The public key of the screen server. -/
  publicKey : Option String
  /-- The private key of the screen server. -/
  privateKey : Option String

namespace Server

/-- No setting was given. -/
def empty : Server := ⟨∅, false, none, none, none, none, none, none, none, none⟩

instance : EmptyCollection Server := ⟨empty⟩

/-- The setting entered. -/
def set (s : Server) (k : ServerSetting) (v : k.Value) : Server :=
  { s with settings := s.settings.insert k v }

end Server

/-! ## Guarded commands -/

/-- For each command that was named, whether it asks for a password, in the order of names. -/
structure PasswordRules where
  /-- The commands with their rules. -/
  toList : List (String × Bool)
  deriving DecidableEq, Repr

namespace PasswordRules

/-- No command was named. -/
def empty : PasswordRules := ⟨[]⟩

instance : EmptyCollection PasswordRules := ⟨empty⟩

/-- The rule entered in an ordered list. -/
def insertSorted (name : String) (rule : Bool) : List (String × Bool) → List (String × Bool)
  | [] => [(name, rule)]
  | (n, r) :: rest =>
    if name = n then (name, rule) :: rest
    else if name < n then (name, rule) :: (n, r) :: rest
    else (n, r) :: insertSorted name rule rest

/-- The rule of a command entered. -/
def insert (p : PasswordRules) (name : String) (rule : Bool) : PasswordRules :=
  ⟨insertSorted name rule p.toList⟩

/-- Reads `COMMAND:on|off` for one of the allowed commands. -/
def read (allowed : List String) (option value : String) :
    Except CommandError (String × Bool) :=
  let rule := match (Text.words (· == ':') value.toList).map String.ofList with
    | [name, mode] =>
      if name ∈ allowed then (Toggle.read mode).map fun b => (name, b) else none
    | _ => none
  Setting.choose option value rule

/-- The commands that a machine can guard. -/
def machineCommands : List String :=
  ["exit-fullscreen", "change-vm-state", "manage-snapshots", "change-guest-pwd"]

/-- The commands that the server can guard. -/
def serverCommands : List String := ["create-vm", "add-vm", "remove-vm", "clone-vm"]

end PasswordRules

end VmControl
