import VmControl.Line.Backup
import VmControl.Line.Guest
import VmControl.Line.Migration
import VmControl.Line.Network
import VmControl.Line.Report
import VmControl.Line.Template

/-!
# Commands

A command says how a line is read: what kind of line it is, what action it stands for, which
options it has, and where it starts.
-/

namespace VmControl

/-- The kinds of lines that several actions share. -/
inductive LineKind where
  | guest
  | migration
  | backup
  | restore
  | backupDelete
  | backupList
  | server
  | statistics
  | problemReport
  deriving DecidableEq, Repr

/-- The kinds of lines that say by themselves what action they stand for. -/
inductive FamilyKind where
  | nodeBackup
  | virtualNetwork
  | privateNetwork
  | usb
  | shaping
  | template
  deriving DecidableEq, Repr

/-- How a line is read. -/
inductive Command where
  /-- As a line of a kind for an action, from a position on. -/
  | line (kind : LineKind) (action : Action) (table : CommandTable) (start : Nat)
  /-- As a line of a family of commands, from a position on. -/
  | family (kind : FamilyKind) (table : CommandTable) (start : Nat)
  /-- As the line that watches the server. -/
  | monitor

/-- How a line of a kind is read. -/
def LineKind.read : LineKind → Action → CommandTable → Nat → List String → Reading Record
  | .guest => readGuestLine
  | .migration => readMigrationLine
  | .backup => readBackupLine
  | .restore => readRestoreLine
  | .backupDelete => readBackupDeleteLine
  | .backupList => readBackupListLine
  | .server => readServerLine
  | .statistics => readStatisticsLine
  | .problemReport => readProblemReportLine

/-- How a line of a family is read. -/
def FamilyKind.read : FamilyKind → CommandTable → Nat → List String → Reading Record
  | .nodeBackup => readNodeBackupLine
  | .virtualNetwork => readVirtualNetworkLine
  | .privateNetwork => readPrivateNetworkLine
  | .usb => readUsbLine
  | .shaping => readShapingLine
  | .template => readTemplateLine

/-- Reads a line. -/
def Command.read (c : Command) (args : List String) : Reading Record :=
  match c with
  | .line kind action table start => kind.read action table start args
  | .family kind table start => kind.read table start args
  | .monitor => readMonitorLine args

end VmControl
