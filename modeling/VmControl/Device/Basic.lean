import VmControl.Device.Adapter

/-!
# Devices

The device that a command is about: what is to be done to it, and its properties.
-/

namespace VmControl

open Numeral Text

/-- What is to be done to a device or a backup. -/
inductive DeviceCommand where
  | add
  | delete
  | set
  | connect
  | disconnect
  | bootOrder
  deriving DecidableEq, Repr

/-- A class of devices. -/
inductive DeviceKind where
  | hdd
  | cdrom
  | fdd
  | net
  | usb
  | serial
  | parallel
  | sound
  | genericPci
  deriving DecidableEq, Repr

namespace DeviceKind

/-- The word for a class of devices. -/
def name : DeviceKind → String
  | .hdd => "hdd"
  | .cdrom => "cdrom"
  | .fdd => "fdd"
  | .net => "net"
  | .usb => "usb"
  | .serial => "serial"
  | .parallel => "parallel"
  | .sound => "sound"
  | .genericPci => "pci"

/-- All classes. -/
def all : List DeviceKind :=
  [.hdd, .cdrom, .fdd, .net, .usb, .serial, .parallel, .sound, .genericPci]

/-- Reads the word for a class.  A disk partition is configured as a disk. -/
def read? (s : String) : Option DeviceKind :=
  if s = "hdd-part" then some .hdd else all.find? (·.name == s)

end DeviceKind

/-- The layout of a disk, or what an adapter is attached to. -/
inductive DeviceMode where
  | hddExpand
  | netHost
  | netShared
  | netBridged
  | netRouted
  deriving DecidableEq, Repr

/-- Reads the mode of a device. -/
def DeviceMode.read? : String → Option DeviceMode
  | "expand" => some .hddExpand
  | "host" => some .netHost
  | "host-only" => some .netHost
  | "bridged" => some .netBridged
  | "shared" => some .netShared
  | "routed" => some .netRouted
  | _ => none

/-- Which end of a socket a serial port is. -/
inductive SocketMode where
  | server
  | client
  deriving DecidableEq, Repr

/-- Reads the end of a socket. -/
def SocketMode.read? : String → Option SocketMode
  | "server" => some .server
  | "client" => some .client
  | _ => none

/-- What becomes of the image of a disk that is removed. -/
inductive ImageFate where
  | detach
  | destroy
  | destroyForce
  deriving DecidableEq, Repr

/-! ## Properties -/

/-- Device properties that are there or not. -/
inductive DeviceMark where
  | recreate
  | offline
  | noFsResize
  | split
  | enable
  | disable
  | connect
  | disconnect
  deriving DecidableEq, Repr

/-- Device properties that hold a text. -/
inductive DeviceText where
  | device
  /-- The disk image; the empty text removes it. -/
  | image
  | mountPoint
  | interface
  | subtype
  | network
  | output
  | socket
  | socketTcp
  | socketUdp
  | mixer
  | mac
  deriving DecidableEq, Repr

/-- A property of a device that one option decides. -/
inductive DeviceSetting where
  | mark (m : DeviceMark)
  | text (t : DeviceText)
  /-- The capacity, in mebibytes. -/
  | size
  | passthrough
  | position
  | mode
  | socketMode
  deriving DecidableEq, Repr

namespace DeviceSetting

/-- The values of a property. -/
abbrev Value : DeviceSetting → Type
  | .mark _ => Unit
  | .text _ => String
  | .size => Nat
  | .passthrough => Int
  | .position => Int
  | .mode => DeviceMode
  | .socketMode => SocketMode

/-- Reads a 32-bit number with a sign, between blanks. -/
def readInt (s : String) : Option Int := signed (word32 / 2) (trim s.toList)

/-- Reads a property that holds a text. -/
def readText (t : DeviceText) (option value : String) : Except CommandError String :=
  match t with
  | .socketTcp => if isHostPort value then .ok value else .error (.refused (.socketAddress value))
  | .mac => Setting.choose option value (readMac value)
  | _ => .ok value

/-- Reads the value of a property. -/
def read (s : DeviceSetting) (option value : String) : Except CommandError s.Value :=
  match s with
  | .mark _ => .ok ()
  | .text t => readText t option value
  | .size => Setting.choose option value (readSize .mebibytes value)
  | .passthrough => Setting.choose option value (readInt value)
  | .position => Setting.choose option value (readInt value)
  | .mode => Setting.choose option value (DeviceMode.read? value)
  | .socketMode => Setting.choose option value (SocketMode.read? value)

/-- The properties that only a device can have. -/
def changes : List DeviceSetting :=
  [.mark .connect, .mark .disconnect, .mark .recreate, .mark .split, .mode, .passthrough, .size,
   .position, .text .image, .text .interface, .text .mac, .text .network, .text .output,
   .text .socket, .text .mixer]

end DeviceSetting

/-! ## Devices -/

/-- A device and what is to be done to it. -/
structure Device where
  /-- What is to be done, if a device was selected. -/
  command : Option DeviceCommand
  /-- The class of the device. -/
  kind : Option DeviceKind
  /-- The name of the device, such as `hdd0`. -/
  name : Option String
  /-- The block size of the image, in sectors. -/
  blockSize : Option Nat
  /-- Whether the image is compacted by itself. -/
  autoCompact : Option Bool
  /-- The properties. -/
  settings : Sheet DeviceSetting.Value
  /-- The guest network settings. -/
  adapter : Adapter

namespace Device

/-- No device. -/
def empty : Device := ⟨none, none, none, none, none, ∅, ∅⟩

instance : EmptyCollection Device := ⟨empty⟩

/-- The property entered. -/
def set (d : Device) (s : DeviceSetting) (v : s.Value) : Device :=
  { d with settings := d.settings.insert s v }

/-- The text of a property, if it is there. -/
def text? (d : Device) (t : DeviceText) : Option String := d.settings.get? (.text t)

/-- Whether a property has a text that is not empty. -/
def hasText (d : Device) (t : DeviceText) : Bool :=
  match d.text? t with
  | some s => s != ""
  | none => false

/-- Whether a mark is set. -/
def has (d : Device) (m : DeviceMark) : Bool := d.settings.has (.mark m)

/-- Whether a property was given that needs a device. -/
def isUpdated (d : Device) : Bool :=
  DeviceSetting.changes.any d.settings.has || d.autoCompact.isSome

end Device

end VmControl
