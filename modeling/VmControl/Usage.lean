import VmControl.Text.Cut

/-!
# Usage

What the programs tell about themselves: their name, their version, and the commands that they
know.
-/

namespace VmControl.Usage

open Text

/-- The version of the programs. -/
def release : String := "7.0.0"

/-- The name of a program that does not know its own. -/
def defaultName : String := "prlctl"

/-- The name of the program: the last part of the path that it was called by. -/
def programName (args : List String) : String :=
  match args.head?.bind fun path => baseName path.toList with
  | some name => String.ofList name
  | none => defaultName

/-- The line that tells the version. -/
def version (program : String) : String := program ++ " version " ++ release

/-- What follows the name of the program that controls guests. -/
def guestSynopsis : String :=
  " ACTION <ID | NAME> [OPTIONS] [-l user[[:passwd]@server[:port]]]"

/-- The commands for guests. -/
def guestCommands : List String :=
  ["Supported actions are:",
   "  backup <ID | NAME> [-s,--storage <user[[:passwd]@server[:port]]>] [--description <desc>]",
   "    [-f,--full | -i,--incremental] [--no-compression]",
   "  backup-list [ID | NAME] [-f,--full] [--vmtype ct|vm|all] [--localvms]",
   "    [-s,--storage <user[[:passwd]@server[:port]]>]",
   "  backup-delete \x7b<ID> | -t,--tag <backupid>\x7d [--keep-chain] [-s,--storage <...>]",
   "  restore \x7b<ID> | -t,--tag <backupid>\x7d [-s,--storage <...>] [-n,--name <new_name>] [--dst <path>]",
   "  clone <ID | NAME> --name <NEW_NAME> [--template] [--dst <path>] [--changesid] [--linked]",
   "    [--detach-external-hdd <yes|no>]",
   "  console <ID | NAME>",
   "  create <NAME> \x7b--ostemplate <name> | -o,--ostype <name|list> | -d,--distribution <name|list>\x7d",
   "    [--vmtype ct|vm] [--dst <path>] [--changesid] [--no-hdd]",
   "  delete <ID | NAME>",
   "  enter <ID | NAME>",
   "  exec <ID | NAME> [--without-shell] <command> [arg ...]",
   "  list [-a,--all] [-t,--template] [--vmtype ct|vm|all] [-L] [-o,--output name[,name...]] [-s,--sort name]",
   "  list -i,--info [-f,--full] [-j,--json] [<ID | NAME>] [--vmtype ct|vm|all]",
   "  migrate <[src_node/]ID> <dst_node[/NAME]> [--dst <path>] [--changesid] [--clone | --remove-src]",
   "    [--no-compression] [--no-tunnel] [--ssh <options>]",
   "  mount <ID | NAME> [\x7b-o ro|rw | --info\x7d]",
   "  move <ID | NAME> --dst <path>",
   "  pause <ID | NAME>",
   "  problem-report <ID | NAME> \x7b-d,--dump | -s,--send [--proxy <[user[:password]@]host[:port]>]\x7d",
   "    [--no-proxy] [--name <name>] [--email <email>] [--description <desc>]",
   "  register <PATH> [--preserve-uuid | --uuid <UUID>] [--regenerate-src-uuid] [--force]",
   "  reset <ID | NAME>",
   "  reset-uptime <ID | NAME>",
   "  restart <ID | NAME>",
   "  resume <ID | NAME>",
   "  set <ID | NAME> [OPTIONS]",
   "  snapshot <ID | NAME> [-n,--name <name>] [-d,--description <desc>]",
   "  snapshot-delete <ID | NAME> -i,--id <snapid> [-c,--children]",
   "  snapshot-list <ID | NAME> [-t,--tree] [-i,--id <snapid>]",
   "  snapshot-switch <ID | NAME> -i,--id <snapid> [--skip-resume]",
   "  start <ID | NAME> [--wait]",
   "  statistics \x7b<ID | NAME> | -a,--all\x7d [--filter <filter>] [--loop]",
   "  status <ID | NAME>",
   "  stop <ID | NAME> [--kill | --noforce]",
   "  suspend <ID | NAME>",
   "  umount <ID | NAME>",
   "  unregister <ID | NAME>",
   "Device management options of set:",
   "  --device-add <hdd | cdrom | net | fdd | serial | parallel | sound | usb | pci> [device options]",
   "  --device-set <name> [device options] [--enable | --disable] [--connect | --disconnect]",
   "  --device-del <name> [--destroy-image | --destroy-image-force | --detach-only]",
   "  --device-connect <name>",
   "  --device-disconnect <name>",
   "  --device-bootorder \"<name1 name2 ...>\"",
   "  --backup-add <ID> [--disk <disk_name>]",
   "  --backup-del <ID | all>"]

/-- What follows the name of the program that controls the server. -/
def serverSynopsis : String :=
  " ACTION [OPTIONS] [-l user[[:passwd]@server[:port]]]"

/-- The commands for the server. -/
def serverCommands : List String :=
  ["Supported actions are:",
   "  info [-j,--json] [--license] [-f,--full]",
   "  install-license -k,--key <key> [-n,--name <name>] [-c,--company <name>]",
   "  update-license",
   "  set [--mem-limit <auto | size>] [-s,--min-security-level <low | normal | high>]",
   "    [--mng-settings <allow | deny>] [\x7b--device <device> --assignment <host | vm>\x7d]",
   "    [-c,--cep <on | off>] [--backup-path <path>] [--idle-connection-timeout <timeout>]",
   "    [--backup-tmpdir <tmpdir>] [--backup-storage <user[[:passwd]@server[:port]]>]",
   "    [--verbose-log <on | off>] [--cpu-features-mask <mask | off>]",
   "    [--vm-cpulimit-type <full | guest>] [--allow-attach-screenshots <on | off>]",
   "    [--require-pwd <create-vm | add-vm | remove-vm | clone-vm>:<on | off>]",
   "    [--vnc-public-key <file> --vnc-private-key <file>]",
   "  shutdown [-f,--force] [--suspend-vm-to-pram]",
   "  user list [-o,--output name[,name...]] [-j,--json]",
   "  user set --def-vm-home <path>",
   "  statistics [-a,--all] [--loop] [--filter <name>]",
   "  problem-report \x7b-d,--dump | -s,--send [--proxy <[user[:password]@]host[:port]>] [--no-proxy]\x7d",
   "    [--stand-alone] [--name <name>] [--email <email>] [--description <desc>]",
   "  net add <vnetwork_id> [-i,--ifname <if>] [-m,--mac <mac>] [-t,--type <bridged | host-only | shared>]",
   "    [-d,--description <desc>] [--ip <addr[/mask]>] [--dhcp-server <on | off>] [--dhcp-ip <ip>]",
   "    [--ip-scope-start <ip>] [--ip-scope-end <ip>] [--ip6 <addr[/mask]>] [--dhcp6-server <on | off>]",
   "    [--dhcp-ip6 <ip>] [--ip6-scope-start <ip>] [--ip6-scope-end <ip>]",
   "    [--nat-<tcp | udp>-add <rule_name,<redir_ip | redir_vm>,in_port,redir_port>]",
   "  net set <vnetwork_id> [net add options] [-n,--name <new_name>] [--nat-<tcp | udp>-del <rule_name>]",
   "  net del <vnetwork_id>",
   "  net info <vnetwork_id>",
   "  net list [-j,--json]",
   "  privnet add <private_network_id> [-a,--ipadd <addr[/mask]>] [--global <yes | no>]",
   "  privnet set <private_network_id> [-a,--ipadd <addr[/mask]>] [-d,--ipdel <addr[/mask]>] [--global <yes | no>]",
   "  privnet del <private_network_id>",
   "  privnet list [-j,--json]",
   "  tc restart",
   "  usb list [-j,--json]",
   "  usb set <name> <vm_uuid>",
   "  usb del <name>",
   "  appliance-install --file <file> [-b,--batch]",
   "  cttemplate list [-j,--json]",
   "  cttemplate remove <name> [<os_template>]",
   "  cttemplate copy <dst_node> <name> [<os_template>] [-f,--force] [--securitylevel <low | normal | high>]",
   "  backup [-s,--storage <user[[:passwd]@server[:port]]>] [-f,--full | -i,--incremental]",
   "  monitor",
   "  help"]

/-- The version, the form of a command line, and the commands. -/
def text (program synopsis : String) (commands : List String) : String :=
  let head := version program ++ "\n\nUsage: " ++ program ++ synopsis
  String.join ((head :: commands).map (· ++ "\n"))

/-- The usage of the program that controls guests. -/
def guest (program : String) : String := text program guestSynopsis guestCommands

/-- The usage of the program that controls the server. -/
def server (program : String) : String := text program serverSynopsis serverCommands

end VmControl.Usage
