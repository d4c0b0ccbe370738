import VmControl.Device.Firewall
import VmControl.Setting.Basic

/-!
# Virtual networks

A virtual network of the server, with its addresses and its port forwarding.
-/

namespace VmControl

open Text

/-- What is to be done to a virtual network. -/
inductive NetworkCommand where
  | add
  | set
  | delete
  | list
  | info
  deriving DecidableEq, Repr

/-- How a virtual network reaches the outside. -/
inductive NetworkKind where
  | bridged
  | hostOnly
  /-- Host-only, with the host passing packets on. -/
  | shared
  deriving DecidableEq, Repr

/-- Reads the kind of a virtual network. -/
def NetworkKind.read? : String → Option NetworkKind
  | "bridged" => some .bridged
  | "host-only" => some .hostOnly
  | "shared" => some .shared
  | _ => none

/-- A port of the host that is forwarded into the network. -/
structure NatRule where
  /-- The name of the rule. -/
  name : String
  /-- Where packets are passed on to. -/
  target : String
  /-- The port of the host. -/
  inPort : Nat
  /-- The port that packets are passed on to. -/
  targetPort : Nat
  deriving DecidableEq, Repr

/-- Reads `NAME,TARGET,PORT,TARGETPORT`; there may be blanks around the ports. -/
def NatRule.read? (s : String) : Option NatRule :=
  match fields ',' s.toList with
  | [name, target, inPort, targetPort] => do
    let inPort ← readPort (trim inPort)
    let targetPort ← readPort (trim targetPort)
    return ⟨String.ofList name, String.ofList target, inPort, targetPort⟩
  | _ => none

/-- The forwarding rules of one protocol to add and, by name, to remove. -/
structure NatChanges where
  /-- The rules to add. -/
  added : List NatRule
  /-- The names of those to remove. -/
  removed : List String
  deriving DecidableEq, Repr

/-- Network settings that hold a text. -/
inductive NetworkText where
  | description
  | ifName
  | mac
  | scopeStart
  | scopeEnd
  | scopeStart6
  | scopeEnd6
  | hostIp
  | hostIp6
  | dhcpIp
  | dhcpIp6
  deriving DecidableEq, Repr

/-- Network settings that are on or off. -/
inductive NetworkSwitch where
  | dhcp
  | dhcp6
  deriving DecidableEq, Repr

/-- A setting of a virtual network that one option decides. -/
inductive NetworkSetting where
  | text (t : NetworkText)
  | switch (s : NetworkSwitch)
  | kind
  deriving DecidableEq, Repr

namespace NetworkSetting

/-- The values of a network setting. -/
abbrev Value : NetworkSetting → Type
  | .text _ => String
  | .switch _ => Bool
  | .kind => NetworkKind

/-- The text as it is kept: addresses of the host are written out. -/
def keptText (t : NetworkText) (value : String) : String :=
  match t with
  | .hostIp => normalizeIp value
  | .hostIp6 => normalizeIp value
  | _ => value

/-- Reads the value of a network setting. -/
def read (s : NetworkSetting) (option value : String) : Except CommandError s.Value :=
  match s with
  | .text t => .ok (keptText t value)
  | .switch _ => Setting.choose option value (Toggle.read value)
  | .kind =>
    match NetworkKind.read? value with
    | some k => .ok k
    | none => .error (.refused (.networkKind value))

end NetworkSetting

/-- A virtual network and what is to be done to it. -/
structure VirtualNetwork where
  /-- What is to be done. -/
  command : NetworkCommand
  /-- The name of the network. -/
  name : Option String
  /-- The settings. -/
  settings : Sheet NetworkSetting.Value
  /-- The forwarding rules for connections. -/
  tcp : NatChanges
  /-- The forwarding rules for datagrams. -/
  udp : NatChanges

namespace VirtualNetwork

/-- The list of networks. -/
def empty : VirtualNetwork := ⟨.list, none, ∅, ⟨[], []⟩, ⟨[], []⟩⟩

instance : EmptyCollection VirtualNetwork := ⟨empty⟩

/-- The setting entered. -/
def set (n : VirtualNetwork) (k : NetworkSetting) (v : k.Value) : VirtualNetwork :=
  { n with settings := n.settings.insert k v }

/-- The text of a setting, if it is there. -/
def text? (n : VirtualNetwork) (t : NetworkText) : Option String := n.settings.get? (.text t)

/-- The forwarding rules of a protocol changed. -/
def mapNat (n : VirtualNetwork) (p : Transport) (f : NatChanges → NatChanges) : VirtualNetwork :=
  match p with
  | .tcp => { n with tcp := f n.tcp }
  | .udp => { n with udp := f n.udp }

end VirtualNetwork

end VmControl
