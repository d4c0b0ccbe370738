/-!
# Why a command line is turned down

Errors are causes; their wording is in `Violation.message`, `Refusal.message` and
`CommandError.message` alone.
-/

namespace VmControl

/-- A rule between several parts of an accepted line that does not hold. -/
inductive Violation where
  /-- A sample configuration together with a guest system. -/
  | configWithGuest
  /-- A sample configuration together with a template. -/
  | configWithTemplate
  /-- A template together with a guest system. -/
  | templateWithGuest
  /-- A UUID that is given and to be kept as well. -/
  | uuidKeptAndGiven
  /-- A path of this host for a machine on another one. -/
  | relativePath (path : String)
  /-- A path that this host cannot resolve. -/
  | unresolvedPath (path : String)
  /-- A network mode for a disk. -/
  | diskMode
  /-- A mode for an adapter that is put into a network. -/
  | modeBesideNetwork
  /-- A mode that adapters cannot be set to. -/
  | adapterMode
  /-- A mode without a disk or an adapter. -/
  | modeWithoutDevice
  /-- An output for a device without one. -/
  | outputUse
  /-- A socket for a device without one. -/
  | socketUse
  /-- A mixer for a device without one. -/
  | mixerUse
  /-- An image to be made anew for a device without one. -/
  | recreateUse
  /-- Network parameters without an adapter. -/
  | adapterMissing
  /-- Device properties without a device. -/
  | deviceMissing
  /-- An adapter in a network and on an interface. -/
  | networkWithInterface
  /-- An adapter in a network and with a mode. -/
  | networkWithMode
  /-- A firewall direction with nothing to go that way. -/
  | directionAlone
  /-- Firewall rules without a direction. -/
  | directionMissing
  /-- A backup to attach and a device to change. -/
  | backupWithDevice
  /-- A disk of a backup that is not attached. -/
  | backupMissing
  /-- Properties for the disk of a backup, but no disk. -/
  | backupDiskMissing
  /-- A position without an interface. -/
  | positionWithoutInterface
  /-- A new system id without a clone. -/
  | systemIdWithoutClone
  /-- A source that is both cloned and removed. -/
  | removalWithClone
  /-- A virtual network without a name. -/
  | networkUnnamed
  /-- A host adapter by name and by address. -/
  | twoAdapters
  /-- A bridged network without a host adapter. -/
  | bridgedWithoutAdapter
  /-- A host adapter for a network that is not bridged. -/
  | adapterForHostOnly
  /-- A private network without a name. -/
  | privateUnnamed
  /-- A private network without a change. -/
  | privateUnchanged
  /-- A host device without an owner. -/
  | assignmentMissing
  /-- An owner without a host device. -/
  | assignedDeviceMissing
  /-- One key of a pair. -/
  | keyPairIncomplete
  /-- A problem report that goes nowhere. -/
  | reportWithoutAction
  deriving DecidableEq, Repr

/-- The start of the messages on two options that exclude each other. -/
def bothText : String := "Unable to simultaneously use "

/-- What the user is told of a violation. -/
def Violation.message : Violation → String
  | .configWithGuest => bothText ++ "--config and --distribution or --ostype"
  | .configWithTemplate => bothText ++ "--config and --ostemplate"
  | .templateWithGuest => bothText ++ "--ostemplate and --distribution or --ostype"
  | .uuidKeptAndGiven => bothText ++ "--preserve-uuid and --uuid"
  | .relativePath path => s!"Relative path '{path}' is not allowed."
  | .unresolvedPath path => s!"Unable to get full path for {path}"
  | .diskMode => "An invalid device type for hdd is specified."
  | .modeBesideNetwork =>
    "The '--type' parameter cannot be used with the '--network' parameter."
  | .adapterMode => "An invalid device type is specified for net"
  | .modeWithoutDevice =>
    "The --type option is used incorrectly. " ++
      "It can be used with 'hdd' or 'net' devices only."
  | .outputUse => "The --output option is used incorrectly."
  | .socketUse => "The --socket option is used incorrectly."
  | .mixerUse => "The --mixer option is used incorrectly."
  | .recreateUse => "The --recreate option have to be specified to setup fdd/hdd device."
  | .adapterMissing =>
    "Unable to configure network parameters, the network interface is not specified."
  | .deviceMissing => "The device is not specified."
  | .networkWithInterface =>
    "Assigning a virtual network adapter to both a Virtual Network and a NIC " ++
      "at the same time is not supported."
  | .networkWithMode =>
    "Assigning a virtual network adapter to a Virtual Network and specifying its type " ++
      "at the same time is not supported."
  | .directionAlone =>
    "The --fw-direction option must be used either with the --fw-policy or --fw-rule option."
  | .directionMissing => "You must specify the --fw-direction option."
  | .backupWithDevice => "The --backup-* options cannot be used with the --device-* options."
  | .backupMissing => "You must specify the --backup-add option."
  | .backupDiskMissing => "You must specify the --disk option."
  | .positionWithoutInterface =>
    "The --position option must be used with the --iface option."
  | .systemIdWithoutClone => "The --changesid option can be used with --clone only"
  | .removalWithClone => "The --remove-src option cannot be used with --clone"
  | .networkUnnamed => "The Virtual Network name is not specified."
  | .twoAdapters => "Specify either the --ifname or --mac option, but not both options."
  | .bridgedWithoutAdapter =>
    "For a bridged Virtual Network, you need to specify either the --ifname or --mac option."
  | .adapterForHostOnly =>
    "The --ifname option should be specified for bridged virtual networks only"
  | .privateUnnamed => "The IP private network name is not specified."
  | .privateUnchanged => "Specify either the --ipadd or --ipdel option."
  | .assignmentMissing =>
    "The --assignment option have to be specified simultaneously with --device."
  | .assignedDeviceMissing =>
    "The --device option have to be specified simultaneously with --assignment."
  | .keyPairIncomplete =>
    "The --vnc-public-key and --vnc-private-key option have to be specified simultaneously."
  | .reportWithoutAction =>
    "Please, choose an action: send the problem report to Parallels (-s, --send) " ++
      "or dump it to stdout (-d, --dump)"

/-- An option or an argument that cannot be taken as it stands. -/
inductive Refusal where
  /-- A security level that there is not. -/
  | securityLevel (value : String)
  /-- A feature without a mode. -/
  | featureWithoutMode (token : String)
  /-- A feature that there is not. -/
  | unknownFeature (name : String)
  /-- A feature of the other class than those before it. -/
  | mixedFeatures (name : String)
  /-- A mode that the feature does not have. -/
  | featureMode (mode name : String)
  /-- A list of capabilities of which one has no mode. -/
  | capabilityWithoutMode (value : String)
  /-- A capability that there is not. -/
  | unknownCapability (name : String)
  /-- A mode that capabilities do not have. -/
  | capabilityMode (mode name : String)
  /-- A text that is no firewall rule. -/
  | firewallRule (value : String)
  /-- A firewall rule for a port of no protocol. -/
  | portWithoutProtocol
  /-- A text that is no offline service. -/
  | offlineService (value : String)
  /-- A text that is no shaping entry or network class. -/
  | shaping (value : String)
  /-- A text that is no bandwidth entry. -/
  | bandwidth (value : String)
  /-- A location that starts with a dot. -/
  | relativeLocation (option : String)
  /-- An option that the command has no use for. -/
  | unhandled (option : String)
  /-- A way to mount that there is not. -/
  | mountOption (value : String)
  /-- A second device to change. -/
  | repeatedDevice (option : String)
  /-- A second backup to attach or detach. -/
  | repeatedBackup
  /-- A device of no known kind. -/
  | deviceKind (option value : String)
  /-- An address without a port. -/
  | socketAddress (value : String)
  /-- Two different fates for one disk image. -/
  | severalImageFates
  /-- The memory quota, which is no longer there. -/
  | memoryQuota
  /-- A text that is no container limit. -/
  | resourceLimit (option value : String)
  /-- A text that is no value of the option. -/
  | invalidValue (option value : String)
  /-- A netfilter mode that there is not. -/
  | netfilter (value : String)
  /-- A text that is no value of a high availability option. -/
  | highAvailability (option value : String)
  /-- A migration without a source or a destination. -/
  | migrateUsage
  /-- A backup command without an argument. -/
  | backupUsage
  /-- A second target. -/
  | secondTarget
  /-- A new name for a virtual network. -/
  | networkRename
  /-- A kind of virtual network that there is not. -/
  | networkKind (value : String)
  /-- A template command that there is not. -/
  | templateCommand (value : String)
  /-- A rule between several parts of the line. -/
  | violation (v : Violation)
  deriving DecidableEq, Repr

/-- What the user is told of a refusal. -/
def Refusal.message : Refusal → String
  | .securityLevel value => s!"An incorrect security level is specified: {value}"
  | .featureWithoutMode token =>
    s!"An incorrect value '{token}' for --features is specified (mode is not specified)"
  | .unknownFeature name => s!"An incorrect feature '{name}' for --features is specified"
  | .mixedFeatures name => s!"An incorrect feature '{name}', mixed features"
  | .featureMode mode name => s!"An incorrect mode '{mode}' for features '{name}' is specified"
  | .capabilityWithoutMode value =>
    s!"An invalid value ('{value}') for --capability: the mode is not specified."
  | .unknownCapability name => s!"An incorrect capability ('{name}') is specified."
  | .capabilityMode mode name =>
    s!"An incorrect mode ('{mode}') is specified for the capability '{name}'."
  | .firewallRule value => s!"An incorrect firewall rule syntax: {value}"
  | .portWithoutProtocol => "Port number may only be specified for protocol 'tcp' or 'udp'"
  | .offlineService value => s!"An incorrect value is specified for offline service: {value}"
  | .shaping value => s!"An incorrect value is specified for network shaping: {value}"
  | .bandwidth value => s!"An incorrect value is specified for network bandwidth: {value}"
  | .relativeLocation option =>
    s!"An incorrect value for {option} is specified; relative paths are not allowed."
  | .unhandled option => s!"Unhandled option: {option}"
  | .mountOption value => s!"Unknown mount option: {value}"
  | .repeatedDevice option => s!"The {option} option is specified several times."
  | .repeatedBackup => "Multiple --backup-add or --backup-del options are specified."
  | .deviceKind option value => s!"An incorrect parameter for {option} is specified: {value}"
  | .socketAddress value =>
    s!"An incorrect value for --socket-tcp is specified: {value}.\n" ++
      "The value must be specified as host:port."
  | .severalImageFates =>
    "Only one of options --detach-only, --destroy-image, --destroy-image-force can be specified."
  | .memoryQuota => "The --memquota is deprecated, please use --memguarantee instead"
  | .resourceLimit option value => s!"an invalid value was specified for {option}: {value}"
  | .invalidValue option value => s!"An invalid value was specified for {option}: {value}"
  | .netfilter value => s!"An incorrect netfilter mode ('{value}') was specified."
  | .highAvailability option value =>
    s!"An incorrect value ('{value}') is specified for {option}"
  | .migrateUsage => "Incorrect migrate usage."
  | .backupUsage => "Incorrect backup usage."
  | .secondTarget => "Incorrect usage."
  | .networkRename =>
    "Virtual network's renaming is now deprecated. You may create new virtual network " ++
      "with specified name and reattach all virtual machines to it."
  | .networkKind value => s!"An unknown Virtual Network type: {value}"
  | .templateCommand value => s!"Unknown cttemplate command {value}"
  | .violation v => v.message

/-- Why a command line yields no record. -/
inductive CommandError where
  /-- The line ends on an option that takes a value. -/
  | missingValue (option : String)
  /-- An argument that is no option of the command. -/
  | unrecognized (token : String)
  /-- An argument beyond those that the command takes. -/
  | unexpectedArgument (token : String)
  /-- A value that the option does not have. -/
  | badValue (option value : String)
  /-- A credential that is not well formed.  The value is not told. -/
  | badSecret (option : String)
  /-- Two options that exclude each other. -/
  | conflict (first second : String)
  /-- An option or an argument that cannot be taken. -/
  | refused (r : Refusal)
  /-- A verb that there is not. -/
  | unknownAction (verb : String)
  /-- Too few arguments. -/
  | invalidUsage
  /-- A file that cannot be read. -/
  | unreadable (path reason : String)
  /-- The diagnostic has been written already. -/
  | reported
  /-- The line is done with, and the program ends with this status. -/
  | exit (status : Int)
  deriving DecidableEq, Repr

/-- What the user is told. -/
def CommandError.message : CommandError → String
  | .missingValue option => s!"The `{option}' option requires an argument."
  | .unrecognized token => s!"Unrecognized option: {token}"
  | .unexpectedArgument token => s!"An unknown option: {token}"
  | .badValue option value => s!"An incorrect value for {option} is specified: {value}"
  | .badSecret option => s!"An incorrect value is specified for {option}"
  | .conflict first second => s!"{bothText}{first} and {second}"
  | .refused r => r.message
  | .unknownAction verb => s!"Unknown action: {verb}"
  | .invalidUsage => "Invalid usage"
  | .unreadable path reason => s!"Unable to read {path}: {reason}"
  | .reported => ""
  | .exit status => s!"exit {status}"

/-- The error of a broken rule. -/
def Violation.error (v : Violation) : CommandError := .refused (.violation v)

/-! ## Chains of steps that may fail -/

section Except

variable {α β : Type} {x : Except CommandError α}

theorem bind_eq_ok {f : α → Except CommandError β} {b : β} :
    (x >>= f) = .ok b ↔ ∃ a, x = .ok a ∧ f a = .ok b := by
  cases x <;> simp [bind, Except.bind]

theorem map_eq_ok {f : α → β} {b : β} : x.map f = .ok b ↔ ∃ a, x = .ok a ∧ f a = b := by
  cases x <;> simp [Except.map]

theorem toOption_eq_some {a : α} : x.toOption = some a ↔ x = .ok a := by
  cases x <;> simp [Except.toOption]

end Except

end VmControl
