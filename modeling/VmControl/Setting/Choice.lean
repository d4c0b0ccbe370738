import VmControl.Numeral

/-!
# Choices

Settings that take one word of a few, each with the words that select it.
-/

namespace VmControl

/-- What a command is about: machines, containers or both. -/
inductive GuestKind where
  | machine
  | container
  | all
  deriving DecidableEq, Repr

/-- Reads the kind of a guest; `all` is a word for listings only. -/
def GuestKind.read? (allowAll : Bool) : String → Option GuestKind
  | "ct" => some .container
  | "c" => some .container
  | "vm" => some .machine
  | "v" => some .machine
  | "all" => if allowAll then some .all else none
  | "a" => if allowAll then some .all else none
  | _ => none

/-- When a guest is started by itself. -/
inductive Autostart where
  | on
  | off
  | auto
  | startApp
  | openWindow
  deriving DecidableEq, Repr

/-- Reads when a guest is started. -/
def Autostart.read? : String → Option Autostart
  | "on" => some .on
  | "yes" => some .on
  | "start-host" => some .on
  | "off" => some .off
  | "no" => some .off
  | "auto" => some .auto
  | "start-app" => some .startApp
  | "open-window" => some .openWindow
  | _ => none

/-- What becomes of a guest when the host goes down. -/
inductive Autostop where
  | stop
  | suspend
  deriving DecidableEq, Repr

/-- Reads what becomes of a guest. -/
def Autostop.read? : String → Option Autostop
  | "stop" => some .stop
  | "suspend" => some .suspend
  | _ => none

/-- How much of three-dimensional drawing is handed to the host. -/
inductive Acceleration where
  | off
  | highest
  | dx9
  deriving DecidableEq, Repr

/-- Reads the acceleration. -/
def Acceleration.read? : String → Option Acceleration
  | "off" => some .off
  | "highest" => some .highest
  | "dx9" => some .dx9
  | _ => none

/-- Whether the mouse is tuned for games. -/
inductive MouseMode where
  | off
  | on
  | auto
  deriving DecidableEq, Repr

/-- Reads the mouse mode. -/
def MouseMode.read? : String → Option MouseMode
  | "off" => some .off
  | "on" => some .on
  | "auto" => some .auto
  | _ => none

/-- How the disks of a guest are mounted. -/
inductive MountMode where
  | readOnly
  | readWrite
  deriving DecidableEq, Repr

/-- Reads the way to mount. -/
def MountMode.read? : String → Option MountMode
  | "ro" => some .readOnly
  | "rw" => some .readWrite
  | _ => none

/-- Whether the screen of a guest is served, and on which port. -/
inductive VncMode where
  | off
  | auto
  | manual
  deriving DecidableEq, Repr

/-- Reads the mode of the screen server. -/
def VncMode.read? : String → Option VncMode
  | "off" => some .off
  | "auto" => some .auto
  | "manual" => some .manual
  | _ => none

/-- Which packet filters a container has. -/
inductive NetfilterMode where
  | disabled
  | stateless
  | stateful
  | full
  deriving DecidableEq, Repr

/-- The word for a packet filter mode. -/
def NetfilterMode.name : NetfilterMode → String
  | .disabled => "disabled"
  | .stateless => "stateless"
  | .stateful => "stateful"
  | .full => "full"

/-- Reads the word for a packet filter mode. -/
def NetfilterMode.read? (s : String) : Option NetfilterMode :=
  [disabled, stateless, stateful, full].find? (·.name == s)

/-- How much memory a guest is sure of. -/
inductive MemoryGuarantee where
  | auto
  /-- A share of its memory. -/
  | percent (n : Nat)
  deriving DecidableEq, Repr

/-- Reads the memory guarantee. -/
def MemoryGuarantee.read? (s : String) : Option MemoryGuarantee :=
  if s = "auto" then some .auto
  else (Numeral.digits Numeral.word32 s.toList).map .percent

/-- How far a template or a migration trusts the network. -/
inductive SecurityLevel where
  | low
  | normal
  | high
  deriving DecidableEq, Repr

/-- Reads the security level. -/
def SecurityLevel.read? : String → Option SecurityLevel
  | "low" => some .low
  | "normal" => some .normal
  | "high" => some .high
  | _ => none

end VmControl
