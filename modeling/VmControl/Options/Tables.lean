import VmControl.Options.Id
import VmControl.Options.Table

/-!
# The options of each command

One table per command.  The options of every command come first, so none of the others can hide
them.
-/

namespace VmControl

open Options

/-- The options of a command with their meanings. -/
abbrev CommandTable := Table OptionId

namespace CommandTable

/-- The options of every command. -/
def everywhere : CommandTable := ⟨[
  (Entry.value "verbose" .verbose).withShort 'v',
  .value "timeout" .timeout,
  (Entry.value "login" .login).withShort 'l',
  (Entry.value "read-passwd" .readPassword).withShort 'p',
  .flag "compat" .compat]⟩

/-- The options of the commands that have none of their own. -/
def plain : CommandTable := everywhere

/-- Stopping a guest, and unmounting its disks. -/
def stop : CommandTable := everywhere ++ ⟨[
  .flag "fast" (.setting (.mark .fast)),
  (Entry.flag "kill" (.setting (.mark .fast))).withShort 'k',
  .flag "acpi" (.setting (.mark .acpi)),
  .flag "force" (.setting (.mark .force)),
  .flag "noforce" (.setting (.mark .noForce))]⟩

/-- Removing a guest for good. -/
def destroy : CommandTable := everywhere ++ ⟨[
  .flag "force" (.setting (.mark .force))]⟩

/-- Starting a guest. -/
def start : CommandTable := everywhere ++ ⟨[
  .flag "wait" (.setting (.mark .wait))]⟩

/-- Mounting the disks of a guest. -/
def mount : CommandTable := everywhere ++ ⟨[
  (Entry.value "options" (.setting (.mountMode))).withShort 'o',
  .flag "info" (.setting (.mark .mountInfo))]⟩

/-- Running a command inside a guest. -/
def exec : CommandTable := everywhere ++ ⟨[
  .flag "without-shell" (.setting (.mark .withoutShell))]⟩

/-- Copying a guest. -/
def clone : CommandTable := everywhere ++ ⟨[
  .value "location" (.setting (.text .location)),
  .value "dst" (.setting (.text .location)),
  (Entry.value "name" (.setting (.text .newName))).withShort 'n',
  (Entry.flag "template" (.setting (.mark .template))).withShort 't',
  (Entry.flag "changesid" (.setting (.mark .changeSystemId))).withShort 's',
  .flag "linked" (.setting (.mark .linkedClone)),
  .value "detach-external-hdd" (.setting (.switch .detachExternalDisks)),
  .flag "online" .onlineClone]⟩

/-- Authenticating a user of a guest. -/
def auth : CommandTable := everywhere ++ ⟨[
  .value "username" (.setting (.text .userName)),
  .value "userpassword" (.setting (.secret .userPassword))]⟩

/-- Creating a guest. -/
def create : CommandTable := everywhere ++ ⟨[
  .value "location" (.setting (.text .location)),
  .value "dst" (.setting (.text .location)),
  (Entry.value "ostype" .osType).withShort 'o',
  (Entry.value "distribution" .distribution).withShort 'd',
  (Entry.value "config" (.setting (.text .config))).withShort 'c',
  (Entry.value "ostemplate" (.setting (.text .osTemplate))).withShort 't',
  (Entry.flag "changesid" (.setting (.mark .changeSystemId))).withShort 's',
  .value "vmtype" .guestKind,
  .flag "no-hdd" (.setting (.mark .noDisk)),
  .value "hdd-block-size" .blockSize,
  .flag "lion-recovery" (.setting (.mark .lionRecovery)),
  .value "uuid" (.setting (.text .uuid))]⟩

/-- Converting a guest. -/
def convert : CommandTable := everywhere ++ ⟨[
  .value "location" (.setting (.text .location)),
  .value "dst" (.setting (.text .location)),
  (Entry.flag "force" (.setting (.mark .force))).withShort 'f']⟩

/-- Registering a guest. -/
def register : CommandTable := everywhere ++ ⟨[
  .flag "force" (.setting (.mark .force)),
  .flag "ignore-ha-cluster" (.setting (.mark .ignoreHaCluster)),
  .flag "preserve-uuid" (.setting (.mark .preserveUuid)),
  .flag "regenerate-src-uuid" (.setting (.mark .regenerateSourceUuid)),
  .value "uuid" (.setting (.text .uuid))]⟩

/-- Moving a guest to another directory. -/
def move : CommandTable := everywhere ++ ⟨[
  .value "location" (.setting (.text .location)),
  .value "dst" (.setting (.text .location))]⟩

/-- Taking a picture of the screen. -/
def capture : CommandTable := everywhere ++ ⟨[
  (Entry.value "file" (.setting (.text .file))).withShort 'f']⟩

/-- Changing the settings of a guest. -/
def set : CommandTable := everywhere ++ ⟨[
  -- device selectors
  .value "device-add" (.selector .add),
  .value "netif_add" (.selector .addAdapter),
  .value "device-set" (.selector .set),
  .value "device-del" (.selector .delete),
  .value "netif_del" (.selector .deleteAdapter),
  .value "device-connect" (.selector .connect),
  .value "device-disconnect" (.selector .disconnect),
  .value "device-bootorder" (.selector .bootOrder),
  -- device properties
  .value "device" (.device (.text .device)),
  (Entry.value "distribution" .distribution).withShort 'd',
  .value "image" (.device (.text .image)),
  .value "mnt" (.device (.text .mountPoint)),
  .flag "recreate" (.device (.mark .recreate)),
  (Entry.value "type" (.device (.mode))).withShort 't',
  .value "adapter-type" (.adapter (.model)),
  (Entry.value "size" (.device (.size))).withShort 's',
  .flag "offline" (.device (.mark .offline)),
  .flag "no-fs-resize" (.device (.mark .noFsResize)),
  .value "diskspace" (.device (.size)),
  .flag "split" (.device (.mark .split)),
  (Entry.flag "enable" (.device (.mark .enable))).withShort 'e',
  .flag "disable" (.device (.mark .disable)),
  (Entry.flag "connect" (.device (.mark .connect))).withShort 'c',
  .flag "disconnect" (.device (.mark .disconnect)),
  .value "hdd-block-size" .blockSize,
  .value "iface" (.device (.text .interface)),
  .value "subtype" (.device (.text .subtype)),
  .value "passthr" (.device (.passthrough)),
  .value "position" (.device (.position)),
  .value "mac" (.device (.text .mac)),
  -- cpu, memory, video
  .value "cpus" (.setting (.count .cpus)),
  .value "cpu-hotplug" (.setting (.switch .cpuHotplug)),
  .value "memsize" (.setting (.size .memory)),
  .value "videosize" (.setting (.size .video)),
  .value "3d-accelerate" (.setting (.acceleration)),
  .value "vertical-sync" (.setting (.switch .verticalSync)),
  .value "high-resolution" (.setting (.switch .highResolution)),
  .value "mem-hotplug" (.setting (.switch .memoryHotplug)),
  .value "memquota" .memoryQuota,
  .value "memguarantee" (.setting (.memoryGuarantee)),
  .value "applyconfig" (.setting (.text .config)),
  .value "description" (.setting (.text .description)),
  .value "name" (.setting (.text .name)),
  .flag "rename-ext-disks" (.setting (.mark .renameExternalDisks)),
  .value "template" (.setting (.switch .isTemplate)),
  .value "smart-mouse-optimize" (.setting (.mouseMode)),
  .value "sticky-mouse" (.setting (.switch .stickyMouse)),
  .value "keyboard-optimize" (.setting (.switch .keyboardOptimize)),
  .value "sync-host-printers" (.setting (.switch .syncHostPrinters)),
  .value "sync-default-printer" (.setting (.switch .syncDefaultPrinter)),
  .value "auto-share-camera" (.setting (.switch .autoShareCamera)),
  .value "auto-share-bluetooth" (.setting (.switch .autoShareBluetooth)),
  .value "support-usb30" (.setting (.switch .supportUsb30)),
  .value "efi-boot" (.setting (.switch .efiBoot)),
  .value "select-boot-device" (.setting (.switch .selectBootDevice)),
  .value "external-boot-device" (.setting (.text .externalBootDevice)),
  -- serial, parallel and sound ports
  .value "output" (.device (.text .output)),
  .value "socket" (.device (.text .socket)),
  .value "socket-tcp" (.device (.text .socketTcp)),
  .value "socket-udp" (.device (.text .socketUdp)),
  .value "socket-mode" (.device (.socketMode)),
  .value "mixer" (.device (.text .mixer)),
  .value "input" (.device (.text .mixer)),
  -- startup and shutdown
  .value "autostart" (.setting (.autostart)),
  .value "onboot" (.setting (.autostart)),
  .value "autostart-delay" (.setting (.count .autostartDelay)),
  .value "autostop" (.setting (.autostop)),
  .value "startup-view" (.setting (.text .startupView)),
  .value "on-shutdown" (.setting (.text .onShutdown)),
  .value "on-window-close" (.setting (.text .onWindowClose)),
  (Entry.value "system-flags" (.setting (.text .systemFlags))).withShort 'f',
  -- optimization and integration
  .value "faster-vm" (.setting (.switch .fasterVm)),
  .value "adaptive-hypervisor" (.setting (.switch .adaptiveHypervisor)),
  .value "auto-compress" (.setting (.switch .autoCompress)),
  .value "nested-virt" (.setting (.switch .nestedVirtualization)),
  .value "pmu-virt" (.setting (.switch .pmuVirtualization)),
  .value "longer-battery-life" (.setting (.switch .longerBatteryLife)),
  .value "battery-status" (.setting (.switch .batteryStatus)),
  .value "winsystray-in-macmenu" (.setting (.switch .systrayInMacMenu)),
  .value "auto-switch-fullscreen" (.setting (.switch .autoSwitchFullscreen)),
  .value "disable-aero" (.setting (.switch .disableAero)),
  .value "hide-min-windows" (.setting (.switch .hideMinimizedWindows)),
  -- security
  .value "require-pwd" .requirePassword,
  .value "lock-edit-settings" (.setting (.switch .lockEditSettings)),
  .value "lock-on-suspend" (.setting (.switch .lockOnSuspend)),
  .value "isolate-vm" (.setting (.switch .isolateVm)),
  .value "smart-guard" (.setting (.switch .smartGuard)),
  .value "sg-notify-before-create" (.setting (.switch .guardNotifyBeforeCreate)),
  .value "sg-interval" (.setting (.count .guardInterval)),
  .value "sg-max-snapshots" (.setting (.count .guardMaxSnapshots)),
  .value "expiration" .expiration,
  -- remote display
  .value "vnc-mode" (.setting (.vncMode)),
  .value "vnc-port" (.setting (.count .vncPort)),
  .value "vnc-passwd" (.setting (.secret .vncPassword)),
  .flag "vnc-nopasswd" (.setting (.mark .vncNoPassword)),
  .value "vnc-address" (.setting (.text .vncAddress)),
  .value "features" .features,
  -- guest network
  .value "ifname" (.selector .setAdapter),
  .value "searchdomain" .searchDomain,
  .value "hostname" (.setting (.text .hostName)),
  .value "nameserver" .nameServer,
  .value "apply-iponly" (.setting (.switch .applyIpOnly)),
  .value "ipset" .ipSet,
  .value "ipadd" .ipAdd,
  .value "ipdel" .ipDelete,
  .value "gw" (.adapter (.gateway)),
  .value "gw6" (.adapter (.gateway6)),
  .value "dhcp" (.adapter (.switch .dhcp)),
  .value "dhcp6" (.adapter (.switch .dhcp6)),
  .value "configure" (.adapter (.switch .configure)),
  .value "preventpromisc" (.adapter (.switch .preventPromiscuous)),
  .value "ipfilter" (.adapter (.switch .ipFilter)),
  .value "macfilter" (.adapter (.switch .macFilter)),
  .value "userpasswd" (.setting (.secret .guestPassword)),
  .value "host-admin" (.setting (.secret .hostAdmin)),
  .flag "crypted" (.setting (.mark .crypted)),
  .value "usedefanswers" (.setting (.switch .useDefaultAnswers)),
  .value "tools-autoupdate" (.setting (.switch .toolsAutoUpdate)),
  .value "smart-mount" (.setting (.switch .smartMount)),
  .value "fw" (.adapter (.switch .firewall)),
  .value "fw-policy" (.adapter (.firewallPolicy)),
  .value "fw-rule" .firewallRule,
  .value "fw-direction" (.adapter (.firewallDirection)),
  .value "network" (.device (.text .network)),
  -- containers and resource limits
  .value "ioprio" (.setting (.count .ioPriority)),
  .value "iolimit" (.setting (.size .io)),
  .value "iopslimit" (.setting (.count .iopsLimit)),
  .value "cpuunits" (.setting (.count .cpuUnits)),
  .value "cpulimit" (.setting (.cpuLimit)),
  .value "cpumask" (.setting (.text .cpuMask)),
  .value "nodemask" (.setting (.text .nodeMask)),
  .value "apptemplate" .appTemplate,
  .value "swappages" .swapPages,
  .value "swap" .swap,
  .value "quotaugidlimit" .quotaUgidLimit,
  .value "capability" .capability,
  .value "netfilter" (.setting (.netfilter)),
  .value "ha-enable" (.setting (.switch .highAvailability)),
  .value "ha_enable" (.setting (.switch .highAvailability)),
  .value "ha" (.setting (.switch .highAvailability)),
  .value "ha-prio" (.setting (.count .haPriority)),
  .value "ha_prio" (.setting (.count .haPriority)),
  .value "backup-add" .backupAdd,
  .value "disk" (.setting (.text .backupDisk)),
  .value "backup-del" .backupDelete,
  .value "offline-management" (.setting (.switch .offlineManagement)),
  .value "offline_management" (.setting (.switch .offlineManagement)),
  .value "offman" (.setting (.switch .offlineManagement)),
  .value "offline-service" .offlineService,
  .value "offline_service" .offlineService,
  .value "offsrv" .offlineService,
  .value "rate" .rate,
  .value "ratebound" (.setting (.switch .rateBound)),
  .flag "destroy-image" (.imageFate .destroy),
  .flag "destroy-image-force" (.imageFate .destroyForce),
  .flag "detach-only" (.imageFate .detach),
  .flag "password-to-edit" (.setting (.mark .restrictEditing)),
  .value "autocompact" (.setting (.switch .autoCompact))]⟩

/-- Listing guests. -/
def list : CommandTable := everywhere ++ ⟨[
  (Entry.value "output" (.setting (.text .listFields))).withShort 'o',
  (Entry.flag "all" (.setting (.mark .listAll))).withShort 'a',
  (Entry.flag "no-header" (.setting (.mark .listNoHeader))).withShort 'H',
  (Entry.value "sort" (.setting (.text .listSort))).withShort 's',
  (Entry.flag "stopped" (.setting (.mark .listStopped))).withShort 'S',
  (Entry.flag "name" (.setting (.mark .listName))).withShort 'n',
  (Entry.flag "template" (.setting (.mark .template))).withShort 't',
  .value "vmtype" .guestKind,
  .flag "help" .help,
  (Entry.flag "info" (.setting (.mark .listInfo))).withShort 'i',
  (Entry.flag "json" (.setting (.mark .json))).withShort 'j',
  (Entry.flag "full" (.setting (.mark .fullInfo))).withShort 'f',
  (Entry.flag "list" (.setting (.mark .listAllFields))).withShort 'L']⟩

/-- Taking a snapshot. -/
def snapshot : CommandTable := everywhere ++ ⟨[
  (Entry.value "name" (.setting (.text .snapshotName))).withShort 'n',
  (Entry.value "description" (.setting (.text .snapshotDescription))).withShort 'd',
  .flag "wait" (.setting (.mark .snapshotWait))]⟩

/-- Returning to a snapshot. -/
def snapshotSwitch : CommandTable := everywhere ++ ⟨[
  (Entry.value "id" (.setting (.text .snapshotId))).withShort 'i',
  .flag "wait" (.setting (.mark .snapshotWait)),
  .flag "skip-resume" (.setting (.mark .snapshotSkipResume))]⟩

/-- Removing a snapshot. -/
def snapshotDelete : CommandTable := everywhere ++ ⟨[
  (Entry.value "id" (.setting (.text .snapshotId))).withShort 'i',
  (Entry.flag "children" (.setting (.mark .snapshotChildren))).withShort 'c']⟩

/-- Listing snapshots. -/
def snapshotList : CommandTable := everywhere ++ ⟨[
  (Entry.value "id" (.setting (.text .snapshotId))).withShort 'i',
  (Entry.flag "tree" (.setting (.mark .snapshotTree))).withShort 't',
  (Entry.flag "no-header" (.setting (.mark .listNoHeader))).withShort 'H']⟩

/-- Migrating a guest. -/
def migrate : CommandTable := everywhere ++ ⟨[
  (Entry.flag "force" (.setting (.mark .force))).withShort 'f',
  .value "securitylevel" .securityLevel,
  .value "location" (.setting (.text .location)),
  .value "dst" (.setting (.text .location)),
  (Entry.value "sessionid" .session).withShort 's',
  .flag "clone" .cloneMode,
  .flag "keep-src" .cloneMode,
  .flag "remove-src" .removeSource,
  .flag "switch-template" .switchTemplate,
  .flag "changesid" (.setting (.mark .changeSystemId)),
  .flag "ignore-existing-bundle" .ignoreExisting,
  .value "ssh" .shellOptions,
  .flag "no-compression" .uncompressed,
  .flag "no-tunnel" .noTunnel]⟩

/-- Backing up a guest, or all guests of a server. -/
def backup : CommandTable := everywhere ++ ⟨[
  (Entry.flag "full" (.backupKind .full)).withShort 'f',
  .shortFlag 'F' (.backupKind .full),
  .shortFlag 'I' (.backupKind .full),
  (Entry.flag "incremental" (.backupKind .incremental)).withShort 'i',
  (Entry.flag "differental" (.backupKind .differential)).withShort 'd',
  (Entry.value "storage" .storage).withShort 's',
  .value "securitylevel" .securityLevel,
  .value "description" (.setting (.text .description)),
  (Entry.flag "uncompressed" .uncompressed).withShort 'u',
  .flag "no-compression" .uncompressed]⟩

/-- Restoring a guest from a backup. -/
def restore : CommandTable := everywhere ++ ⟨[
  (Entry.value "storage" .storage).withShort 's',
  (Entry.value "tag" .backupId).withShort 't',
  (Entry.value "id" .backupId).withShort 'i',
  (Entry.value "vm" .backupTarget).withShort 'e',
  (Entry.value "name" (.setting (.text .newName))).withShort 'n',
  .flag "list" .backupList,
  (Entry.flag "full" .backupListFull).withShort 'f',
  .value "securitylevel" .securityLevel,
  .value "location" (.setting (.text .location)),
  .value "dst" (.setting (.text .location))]⟩

/-- Listing backups. -/
def backupList : CommandTable := everywhere ++ ⟨[
  (Entry.flag "full" .backupListFull).withShort 'f',
  (Entry.value "storage" .storage).withShort 's',
  (Entry.flag "no-header" (.setting (.mark .listNoHeader))).withShort 'H',
  .flag "localvms" .localGuests,
  .flag "localvm" .localGuests,
  .value "securitylevel" .securityLevel,
  .value "vmtype" .guestKind]⟩

/-- Removing a backup. -/
def backupDelete : CommandTable := everywhere ++ ⟨[
  (Entry.value "storage" .storage).withShort 's',
  (Entry.value "tag" .backupId).withShort 't',
  (Entry.value "id" .backupId).withShort 'i',
  .value "securitylevel" .securityLevel,
  (Entry.flag "keep-chain" .keepChain).withShort 'k']⟩

/-- Showing performance counters. -/
def statistics : CommandTable := everywhere ++ ⟨[
  (Entry.flag "all" (.setting (.mark .listAll))).withShort 'a',
  .flag "loop" .loop,
  .value "filter" .filter]⟩

/-- Reporting a problem. -/
def problemReport : CommandTable := everywhere ++ ⟨[
  (Entry.flag "send" (.report .send)).withShort 's',
  (Entry.flag "dump" (.report .dump)).withShort 'd',
  .flag "no-proxy" .noProxy,
  .value "proxy" .proxy,
  .flag "stand-alone" .standAlone,
  .value "name" .reportName,
  .value "email" .reportEmail,
  .value "description" .reportDescription]⟩

/-- Changing the settings of the server. -/
def serverSet : CommandTable := everywhere ++ ⟨[
  (Entry.value "mem-limit" (.server (.memoryLimit))).withShort 'm',
  .value "mng-settings" (.server (.management)),
  (Entry.value "min-security-level" (.server (.text .minSecurityLevel))).withShort 's',
  .value "assignment" (.server (.deviceOwner)),
  .value "device" (.device (.text .device)),
  (Entry.value "cep" (.server (.switch .cep))).withShort 'c',
  .value "verbose-log" (.server (.switch .verboseLog)),
  .value "backup-path" (.server (.text .backupPath)),
  .value "backup-tmpdir" (.server (.text .backupTmpdir)),
  .value "backup-storage" .storage,
  .value "def-backup-storage" .storage,
  .value "default-backup-storage" .storage,
  .value "backup-timeout" (.server (.backupTimeout)),
  .value "idle-connection-timeout" (.server (.backupTimeout)),
  .value "add-offsrv" .addService,
  .value "del-offsrv" .deleteService,
  .value "add-network-class" .addClass,
  .value "del-network-class" .deleteClass,
  .value "add-shaping-entry" .addShaping,
  .value "del-shaping-entry" .deleteShaping,
  .value "add-bandwidth-entry" .addBandwidth,
  .value "del-bandwidth-entry" .deleteBandwidth,
  .value "shaping" (.server (.switch .shaping)),
  .value "log-rotation" (.server (.switch .logRotation)),
  .value "allow-attach-screenshots" (.server (.switch .allowAttachScreenshots)),
  .value "require-pwd" .requirePassword,
  .value "lock-edit-settings" (.setting (.switch .lockEditSettings)),
  .value "advanced-security-mode" (.server (.securityMode)),
  .value "cpu-features-mask" (.server (.text .cpuFeaturesMask)),
  .value "vnc-public-key" (.serverKey .publicKey),
  .value "vnc-private-key" (.serverKey .privateKey),
  .value "vm-cpulimit-type" (.server (.cpuLimitScope))]⟩

/-- Changing virtual networks. -/
def serverNetwork : CommandTable := everywhere ++ ⟨[
  (Entry.value "name" .networkName).withShort 'n',
  (Entry.value "ifname" (.network (.text .ifName))).withShort 'i',
  (Entry.value "description" (.network (.text .description))).withShort 'd',
  (Entry.value "type" (.network (.kind))).withShort 't',
  (Entry.value "mac" (.network (.text .mac))).withShort 'm',
  .value "ip-scope-start" (.network (.text .scopeStart)),
  .value "ip-scope-end" (.network (.text .scopeEnd)),
  .value "ip6-scope-start" (.network (.text .scopeStart6)),
  .value "ip6-scope-end" (.network (.text .scopeEnd6)),
  .value "nat-tcp-add" (.natAdd .tcp),
  .value "nat-udp-add" (.natAdd .udp),
  .value "nat-tcp-del" (.natDelete .tcp),
  .value "nat-udp-del" (.natDelete .udp),
  .value "ip" (.network (.text .hostIp)),
  .value "ip6" (.network (.text .hostIp6)),
  .value "dhcp-server" (.network (.switch .dhcp)),
  .value "dhcp6-server" (.network (.switch .dhcp6)),
  .value "dhcp-ip" (.network (.text .dhcpIp)),
  .value "dhcp-ip6" (.network (.text .dhcpIp6)),
  (Entry.flag "json" (.setting (.mark .json))).withShort 'j']⟩

/-- Changing private networks. -/
def serverPrivate : CommandTable := everywhere ++ ⟨[
  (Entry.value "ipadd" .privateAdd).withShort 'a',
  (Entry.value "ipdel" .privateDelete).withShort 'd',
  .value "global" .privateGlobal,
  (Entry.flag "json" (.setting (.mark .json))).withShort 'j']⟩

/-- Assigning USB devices. -/
def serverUsb : CommandTable := everywhere ++ ⟨[
  (Entry.flag "json" (.setting (.mark .json))).withShort 'j']⟩

/-- Stopping the server. -/
def serverShutdown : CommandTable := everywhere ++ ⟨[
  (Entry.flag "force" (.setting (.mark .force))).withShort 'f',
  .flag "suspend-vm-to-pram" (.server (.mark .suspendToMemory))]⟩

/-- Showing what the server is. -/
def serverInfo : CommandTable := everywhere ++ ⟨[
  .flag "license" (.server (.mark .licenseInfo)),
  (Entry.flag "json" (.setting (.mark .json))).withShort 'j',
  (Entry.flag "full" (.setting (.mark .fullInfo))).withShort 'f']⟩

/-- Choosing the interface that the server listens on. -/
def serverListen : CommandTable := everywhere ++ ⟨[
  .value "listen-interface" (.server (.text .listenInterface))]⟩

/-- Listing users. -/
def userList : CommandTable := everywhere ++ ⟨[
  (Entry.value "output" (.setting (.text .listFields))).withShort 'o',
  (Entry.flag "all" (.setting (.mark .listAll))).withShort 'a',
  (Entry.flag "no-header" (.setting (.mark .listNoHeader))).withShort 'H',
  (Entry.value "sort" (.setting (.text .listSort))).withShort 's',
  .flag "help" .help,
  (Entry.flag "json" (.setting (.mark .json))).withShort 'j']⟩

/-- Changing the settings of a user. -/
def userSet : CommandTable := everywhere ++ ⟨[
  .value "def-vm-home" (.setting (.text .defaultVmHome))]⟩

/-- Installing a license. -/
def license : CommandTable := everywhere ++ ⟨[
  (Entry.value "key" .licenseKey).withShort 'k',
  (Entry.value "name" (.setting (.text .newName))).withShort 'n',
  (Entry.value "company" .company).withShort 'c']⟩

/-- Installing an appliance. -/
def appliance : CommandTable := everywhere ++ ⟨[
  .value "file" (.setting (.text .file)),
  (Entry.flag "batch" .batch).withShort 'b']⟩

/-- Copying a container template. -/
def templateCopy : CommandTable := everywhere ++ ⟨[
  (Entry.flag "force" (.setting (.mark .force))).withShort 'f',
  .value "securitylevel" .securityLevel]⟩

end CommandTable

end VmControl
