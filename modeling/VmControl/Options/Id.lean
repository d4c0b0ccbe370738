import VmControl.Device.Basic
import VmControl.Network.Virtual
import VmControl.Server.Basic
import VmControl.Task

/-!
# What options mean

The meaning of an option, apart from its names.  Options that are spelled differently share a
meaning if they do the same; what a meaning changes is up to the command.  Most options enter one
value on a sheet, and their meaning is the key of that value.
-/

namespace VmControl

/-- A way to select the device of a command. -/
inductive Selector where
  /-- A new device of a class. -/
  | add
  /-- A new adapter, by the name of its interface. -/
  | addAdapter
  /-- A device to be changed. -/
  | set
  /-- An adapter to be changed, by the name of its interface. -/
  | setAdapter
  /-- A device to be removed. -/
  | delete
  /-- An adapter to be removed. -/
  | deleteAdapter
  /-- A device to be connected. -/
  | connect
  /-- A device to be disconnected. -/
  | disconnect
  /-- The devices to start from. -/
  | bootOrder
  deriving DecidableEq, Repr

/-- One of the two files of a key pair. -/
inductive KeyRole where
  | publicKey
  | privateKey
  deriving DecidableEq, Repr

/-- What an option means. -/
inductive OptionId where
  -- every command
  | verbose
  | timeout
  | login
  | readPassword
  | compat
  -- several commands
  | help
  | setting (s : Setting)
  | securityLevel
  | storage
  | uncompressed
  -- guests
  | osType
  | distribution
  | guestKind
  | blockSize
  | onlineClone
  -- devices
  | selector (s : Selector)
  | device (s : DeviceSetting)
  | imageFate (f : ImageFate)
  | backupAdd
  | backupDelete
  -- resources
  | memoryQuota
  | swapPages
  | swap
  | quotaUgidLimit
  | capability
  | features
  | appTemplate
  | rate
  -- other settings of a guest
  | expiration
  | requirePassword
  | offlineService
  -- guest network
  | adapter (s : AdapterSetting)
  | searchDomain
  | nameServer
  | ipSet
  | ipAdd
  | ipDelete
  | firewallRule
  -- migration
  | session
  | cloneMode
  | removeSource
  | switchTemplate
  | ignoreExisting
  | shellOptions
  | noTunnel
  -- backups
  | backupKind (k : BackupKind)
  | backupId
  | backupTarget
  | backupList
  | backupListFull
  | localGuests
  | keepChain
  -- statistics and problem reports
  | loop
  | filter
  | report (a : ReportAction)
  | noProxy
  | proxy
  | standAlone
  | reportName
  | reportEmail
  | reportDescription
  -- server
  | server (s : ServerSetting)
  | serverKey (r : KeyRole)
  | licenseKey
  | company
  | batch
  | addService
  | deleteService
  | addClass
  | deleteClass
  | addShaping
  | deleteShaping
  | addBandwidth
  | deleteBandwidth
  -- networks
  | network (s : NetworkSetting)
  | networkName
  | natAdd (p : Transport)
  | natDelete (p : Transport)
  | privateAdd
  | privateDelete
  | privateGlobal
  deriving DecidableEq, Repr

end VmControl
