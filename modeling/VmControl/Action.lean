/-!
# Actions

What a command line asks for.  The actions from `serverShutdown` on concern the server as a whole,
those before it a machine or a list of machines.
-/

namespace VmControl

/-- What is to be done. -/
inductive Action where
  /-- Nothing: the line was turned down. -/
  | invalid
  | create
  | start
  | stop
  | mount
  | umount
  | suspend
  | resume
  | pause
  | list
  | destroy
  | register
  | unregister
  | clone
  | set
  | reset
  | restart
  | installTools
  | capture
  | migrate
  | move
  | backup
  | restore
  | backupList
  | backupDelete
  | perfStats
  | problemReport
  | enter
  | console
  | exec
  | changeSid
  | resetUptime
  | convert
  | auth
  | status
  | internal
  | snapshotCreate
  | snapshotSwitch
  | snapshotDelete
  | snapshotList
  | serverShutdown
  | serverInfo
  | serverUserList
  | serverUserSet
  | serverInstallLicense
  | serverUpdateLicense
  | serverPerfStats
  | serverProblemReport
  | serverSet
  | serverVirtualNetwork
  | serverPrivateNetwork
  | serverUsb
  | serverShapingRestart
  | serverInstallAppliance
  | serverTemplate
  | serverTemplateCopy
  | serverMonitor
  | serverUpdateHostRegInfo
  | serverPrepareForUninstall
  | serverBackupNode
  | serverListNetworkConfig
  | serverUpListenInterface
  | serverStartNatDetect
  deriving DecidableEq, Repr

namespace Action

/-- The words by which the user knows the action. -/
def name : Action → String
  | .invalid => "invalid"
  | .create => "create"
  | .start => "start"
  | .stop => "stop"
  | .mount => "mount"
  | .umount => "umount"
  | .suspend => "suspend"
  | .resume => "resume"
  | .pause => "pause"
  | .list => "list"
  | .destroy => "delete"
  | .register => "register"
  | .unregister => "unregister"
  | .clone => "clone"
  | .set => "set"
  | .reset => "reset"
  | .restart => "restart"
  | .installTools => "installtools"
  | .capture => "capture"
  | .migrate => "migrate"
  | .move => "move"
  | .backup => "backup"
  | .restore => "restore"
  | .backupList => "backup-list"
  | .backupDelete => "backup-delete"
  | .perfStats => "statistics"
  | .problemReport => "problem-report"
  | .enter => "enter"
  | .console => "console"
  | .exec => "exec"
  | .changeSid => "change-sid"
  | .resetUptime => "reset-uptime"
  | .convert => "convert"
  | .auth => "auth"
  | .status => "status"
  | .internal => "internal"
  | .snapshotCreate => "snapshot"
  | .snapshotSwitch => "snapshot-switch"
  | .snapshotDelete => "snapshot-delete"
  | .snapshotList => "snapshot-list"
  | .serverShutdown => "server shutdown"
  | .serverInfo => "server info"
  | .serverUserList => "user list"
  | .serverUserSet => "user set"
  | .serverInstallLicense => "install-license"
  | .serverUpdateLicense => "update-license"
  | .serverPerfStats => "server statistics"
  | .serverProblemReport => "server problem-report"
  | .serverSet => "server set"
  | .serverVirtualNetwork => "net"
  | .serverPrivateNetwork => "privnet"
  | .serverUsb => "usb"
  | .serverShapingRestart => "tc restart"
  | .serverInstallAppliance => "appliance-install"
  | .serverTemplate => "cttemplate"
  | .serverTemplateCopy => "cttemplate copy"
  | .serverMonitor => "monitor"
  | .serverUpdateHostRegInfo => "update-host-reg-info"
  | .serverPrepareForUninstall => "prepare-for-uninstall"
  | .serverBackupNode => "server backup"
  | .serverListNetworkConfig => "list-network-config"
  | .serverUpListenInterface => "up-listen-interface"
  | .serverStartNatDetect => "start-nat-detect"

/-- All actions. -/
def all : List Action :=
  [.invalid, .create, .start, .stop, .mount, .umount, .suspend, .resume, .pause, .list, .destroy,
   .register, .unregister, .clone, .set, .reset, .restart, .installTools, .capture, .migrate,
   .move, .backup, .restore, .backupList, .backupDelete, .perfStats, .problemReport, .enter,
   .console, .exec, .changeSid, .resetUptime, .convert, .auth, .status, .internal, .snapshotCreate,
   .snapshotSwitch, .snapshotDelete, .snapshotList, .serverShutdown, .serverInfo, .serverUserList,
   .serverUserSet, .serverInstallLicense, .serverUpdateLicense, .serverPerfStats,
   .serverProblemReport, .serverSet, .serverVirtualNetwork, .serverPrivateNetwork, .serverUsb,
   .serverShapingRestart, .serverInstallAppliance, .serverTemplate, .serverTemplateCopy,
   .serverMonitor, .serverUpdateHostRegInfo, .serverPrepareForUninstall, .serverBackupNode,
   .serverListNetworkConfig, .serverUpListenInterface, .serverStartNatDetect]

end Action

end VmControl
