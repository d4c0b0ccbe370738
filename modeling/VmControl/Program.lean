import VmControl.Command
import VmControl.Usage

/-!
# Programs

The two programs, for guests and for the server.  Their first words say which command a line is
for; a few lines ask for nothing but help.
-/

namespace VmControl

/-- A program. -/
inductive Program where
  /-- The one that controls guests. -/
  | guests
  /-- The one that controls the server. -/
  | server
  deriving DecidableEq, Repr

/-! ## Verbs -/

/-- The commands about one guest whose lines have no options but those that every command knows. -/
def plainVerbs : List (String × Action) :=
  [("change-sid", .changeSid), ("internal", .internal), ("reset-uptime", .resetUptime),
   ("suspend", .suspend), ("resume", .resume), ("pause", .pause), ("unregister", .unregister),
   ("reset", .reset), ("restart", .restart), ("installtools", .installTools), ("enter", .enter),
   ("console", .console), ("status", .status)]

/-- The commands about one guest with options of their own. -/
def guestVerbs : List (String × Action × CommandTable) :=
  [("start", .start, CommandTable.start),
   ("stop", .stop, CommandTable.stop),
   ("umount", .umount, CommandTable.stop),
   ("mount", .mount, CommandTable.mount),
   ("set", .set, CommandTable.set),
   ("create", .create, CommandTable.create),
   ("convert", .convert, CommandTable.convert),
   ("delete", .destroy, CommandTable.destroy),
   ("destroy", .destroy, CommandTable.destroy),
   ("clone", .clone, CommandTable.clone),
   ("capture", .capture, CommandTable.capture),
   ("snapshot", .snapshotCreate, CommandTable.snapshot),
   ("snapshot-switch", .snapshotSwitch, CommandTable.snapshotSwitch),
   ("snapshot-delete", .snapshotDelete, CommandTable.snapshotDelete),
   ("snapshot-list", .snapshotList, CommandTable.snapshotList),
   ("move", .move, CommandTable.move),
   ("exec", .exec, CommandTable.exec),
   ("auth", .auth, CommandTable.auth)]

/-- The other commands of the program for guests. -/
def taskVerbs : List (String × LineKind × Action × CommandTable × Nat) :=
  [("register", .guest, .register, CommandTable.register, 1),
   ("migrate", .migration, .migrate, CommandTable.migrate, 2),
   ("statistics", .statistics, .perfStats, CommandTable.statistics, 2),
   ("problem-report", .problemReport, .problemReport, CommandTable.problemReport, 2),
   ("backup", .backup, .backup, CommandTable.backup, 2),
   ("restore", .restore, .restore, CommandTable.restore, 2),
   ("backup-delete", .backupDelete, .backupDelete, CommandTable.backupDelete, 2)]

/-- The commands about the server that the program for guests has too. -/
def sharedVerbs : List (String × LineKind × Action × CommandTable) :=
  [("shutdown", .server, .serverShutdown, CommandTable.serverShutdown),
   ("info", .server, .serverInfo, CommandTable.serverInfo),
   ("install-license", .server, .serverInstallLicense, CommandTable.license),
   ("problem-report", .problemReport, .serverProblemReport, CommandTable.problemReport)]

/-- The commands that only the program for the server has. -/
def serverVerbs : List (String × LineKind × Action × CommandTable) :=
  [("stop", .server, .serverShutdown, CommandTable.serverShutdown),
   ("set", .server, .serverSet, CommandTable.serverSet),
   ("update-license", .server, .serverUpdateLicense, CommandTable.plain),
   ("statistics", .statistics, .serverPerfStats, CommandTable.statistics),
   ("appliance-install", .server, .serverInstallAppliance, CommandTable.appliance),
   ("update-host-reg-info", .server, .serverUpdateHostRegInfo, CommandTable.plain),
   ("prepare-for-uninstall", .server, .serverPrepareForUninstall, CommandTable.plain),
   ("list-network-config", .server, .serverListNetworkConfig, CommandTable.plain),
   ("up-listen-interface", .server, .serverUpListenInterface, CommandTable.serverListen),
   ("start-nat-detect", .server, .serverStartNatDetect, CommandTable.plain)]

/-- The families of commands of the program for the server. -/
def familyVerbs : List (String × FamilyKind × CommandTable) :=
  [("net", .virtualNetwork, CommandTable.serverNetwork),
   ("tc", .shaping, CommandTable.plain),
   ("privnet", .privateNetwork, CommandTable.serverPrivate),
   ("usb", .usb, CommandTable.serverUsb),
   ("cttemplate", .template, CommandTable.templateCopy),
   ("backup", .nodeBackup, CommandTable.backup)]

/-- The commands about users. -/
def userVerbs : List (String × Action × CommandTable) :=
  [("list", .serverUserList, CommandTable.userList), ("set", .serverUserSet, CommandTable.userSet)]

/-! ## From words to commands -/

/-- The command about the server that a verb stands for, its line starting at `start`. -/
def sharedCommand? (verb : String) (start : Nat) : Option Command :=
  (sharedVerbs.lookup verb).map fun (kind, action, table) => .line kind action table start

/-- The command that a verb of the program for guests stands for. -/
def guestCommand? (verb : String) : Option Command :=
  match plainVerbs.lookup verb with
  | some action => some (.line .guest action CommandTable.plain 2)
  | none =>
    match guestVerbs.lookup verb with
    | some (action, table) => some (.line .guest action table 2)
    | none => (taskVerbs.lookup verb).map fun (kind, action, table, start) =>
      .line kind action table start

/-- The command that the words after the name of the program for guests stand for.  Two verbs need
no second word. -/
def guestCommand (words : List String) : Except CommandError Command :=
  match words with
  | [] => .error .invalidUsage
  | "list" :: _ => .ok (.line .guest .list CommandTable.list 1)
  | "backup-list" :: _ => .ok (.line .backupList .backupList CommandTable.backupList 1)
  | [_] => .error .invalidUsage
  | "server" :: verb :: _ =>
    match sharedCommand? verb 3 with
    | some command => .ok command
    | none => .error (.unknownAction verb)
  | verb :: _ =>
    match guestCommand? verb with
    | some command => .ok command
    | none => .error (.unknownAction verb)

/-- The command that a verb of the program for the server stands for. -/
def serverCommand? (verb : String) : Option Command :=
  match sharedCommand? verb 2 with
  | some command => some command
  | none =>
    match serverVerbs.lookup verb with
    | some (kind, action, table) => some (.line kind action table 2)
    | none => (familyVerbs.lookup verb).map fun (kind, table) => .family kind table 2

/-- The command about users that a word stands for. -/
def userCommand (word : String) : Except CommandError Command :=
  match userVerbs.lookup word with
  | some (action, table) => .ok (.line .guest action table 2)
  | none => .error (.unknownAction (if word = "" then "user" else word))

/-- The command that the words after the name of the program for the server stand for. -/
def serverCommand (words : List String) : Except CommandError Command :=
  match words with
  | [] => .error .invalidUsage
  | "user" :: rest => userCommand (rest.headD "")
  | "monitor" :: _ => .ok .monitor
  | verb :: _ =>
    match serverCommand? verb with
    | some command => .ok command
    | none => .error (.unknownAction verb)

namespace Program

/-- The usage of the program. -/
def usage (p : Program) (args : List String) : String :=
  let name := Usage.programName args
  match p with
  | .guests => Usage.guest name
  | .server => Usage.server name

/-- What the line asks to be told, and how it ends then: a line without words is turned down. -/
def help? (p : Program) (args : List String) : Option (String × CommandError) :=
  match p, args.drop 1 with
  | _, [] => some (p.usage args, .reported)
  | .guests, verb :: _ =>
    if verb = "--version" then some (Usage.version (Usage.programName args) ++ "\n", .exit 0)
    else if "--help" ∈ args then some (p.usage args, .exit 0)
    else none
  | .server, verb :: _ =>
    if verb = "help" ∨ verb = "--help" then some (p.usage args, .exit 0) else none

/-- The command that a line is for. -/
def command (p : Program) (args : List String) : Except CommandError Command :=
  match p with
  | .guests => guestCommand (args.drop 1)
  | .server => serverCommand (args.drop 1)

/-- Reads a line. -/
def read (p : Program) (args : List String) : Reading Record := do
  match p.help? args with
  | some (text, ending) =>
    Reading.write (.output text)
    throw ending
  | none =>
    let command ← Reading.ofExcept (p.command args)
    command.read args

end Program

end VmControl
