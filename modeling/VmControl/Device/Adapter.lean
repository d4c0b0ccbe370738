import VmControl.Device.Firewall
import VmControl.Setting.Basic

/-!
# Network adapters

The guest network settings of one adapter.
-/

namespace VmControl

/-- The hardware that an adapter shows to the guest. -/
inductive AdapterModel where
  | virtio
  | e1000
  | rtl
  deriving DecidableEq, Repr

/-- Reads the hardware of an adapter. -/
def AdapterModel.read? : String → Option AdapterModel
  | "virtio" => some .virtio
  | "e1000" => some .e1000
  | "rtl" => some .rtl
  | _ => none

/-- Adapter settings that are on or off. -/
inductive AdapterSwitch where
  | dhcp
  | dhcp6
  | configure
  | ipFilter
  | preventPromiscuous
  | macFilter
  | firewall
  deriving DecidableEq, Repr

/-- The error for a word that is neither on nor off. -/
def AdapterSwitch.refuse (s : AdapterSwitch) (option value : String) : CommandError :=
  match s with
  | .dhcp => refuseValue option value
  | .dhcp6 => refuseValue option value
  | .firewall => refuseValue option value
  | _ => .refused (.invalidValue option value)

/-- A setting of an adapter that one option decides. -/
inductive AdapterSetting where
  /-- The gateway; the empty text removes it. -/
  | gateway
  /-- The gateway of the other address family. -/
  | gateway6
  | switch (s : AdapterSwitch)
  | model
  | firewallPolicy
  | firewallDirection
  deriving DecidableEq, Repr

namespace AdapterSetting

/-- The values of an adapter setting. -/
abbrev Value : AdapterSetting → Type
  | .gateway => String
  | .gateway6 => String
  | .switch _ => Bool
  | .model => AdapterModel
  | .firewallPolicy => FirewallPolicy
  | .firewallDirection => FirewallDirection

/-- Reads the value of an adapter setting. -/
def read (s : AdapterSetting) (option value : String) : Except CommandError s.Value :=
  match s with
  | .gateway => .ok value
  | .gateway6 => .ok value
  | .switch s =>
    match Toggle.read value with
    | some b => .ok b
    | none => .error (s.refuse option value)
  | .model => Setting.choose option value (AdapterModel.read? value)
  | .firewallPolicy => Setting.choose option value (FirewallPolicy.read? value)
  | .firewallDirection => Setting.choose option value (FirewallDirection.read? value)

/-- Whether the setting counts as a change of the adapter.  A direction alone is none. -/
def isChange : AdapterSetting → Bool
  | .firewallDirection => false
  | _ => true

/-- All adapter settings. -/
def all : List AdapterSetting :=
  [.gateway, .gateway6, .switch .dhcp, .switch .dhcp6, .switch .configure, .switch .ipFilter,
   .switch .preventPromiscuous, .switch .macFilter, .switch .firewall, .model, .firewallPolicy,
   .firewallDirection]

end AdapterSetting

/-- The settings of one adapter. -/
structure Adapter where
  /-- The name of the interface. -/
  ifName : Option String
  /-- The domains that names are looked up in. -/
  searchDomains : List String
  /-- The servers that look up names. -/
  nameServers : List String
  /-- The addresses to add. -/
  addresses : List String
  /-- The addresses to remove. -/
  removed : List String
  /-- Whether all addresses are removed. -/
  removeAll : Bool
  /-- Whether the addresses replace those that are there. -/
  replace : Bool
  /-- The firewall rules. -/
  rules : List FirewallRule
  /-- All else. -/
  settings : Sheet AdapterSetting.Value

namespace Adapter

/-- An adapter that is left as it is. -/
def empty : Adapter := ⟨none, [], [], [], [], false, false, [], ∅⟩

instance : EmptyCollection Adapter := ⟨empty⟩

/-- Whether anything is to be changed. -/
def isUpdated (a : Adapter) : Bool :=
  a.ifName.isSome || !a.searchDomains.isEmpty || !a.nameServers.isEmpty ||
    !a.addresses.isEmpty || !a.removed.isEmpty || a.removeAll ||
    AdapterSetting.all.any fun s => s.isChange && a.settings.has s

/-- The setting entered. -/
def set (a : Adapter) (s : AdapterSetting) (v : s.Value) : Adapter :=
  { a with settings := a.settings.insert s v }

end Adapter

end VmControl
