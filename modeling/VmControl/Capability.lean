import VmControl.Error
import VmControl.Text.Cut
import VmControl.Value.Toggle

/-!
# Container capabilities

The capabilities that a container can be given or denied.  A mask has one bit for each of them, in
the order of `Capability.names`.
-/

namespace VmControl

open Text

/-- The capabilities in the order of their bits. -/
def Capability.names : List String :=
  ["CHOWN", "DAC_OVERRIDE", "DAC_READ_SEARCH", "FOWNER", "FSETID", "KILL", "SETGID", "SETUID",
   "SETPCAP", "LINUX_IMMUTABLE", "NET_BIND_SERVICE", "NET_BROADCAST", "NET_ADMIN", "NET_RAW",
   "IPC_LOCK", "IPC_OWNER", "SYS_MODULE", "SYS_RAWIO", "SYS_CHROOT", "SYS_PTRACE", "SYS_PACCT",
   "SYS_ADMIN", "SYS_BOOT", "SYS_NICE", "SYS_RESOURCE", "SYS_TIME", "SYS_TTY_CONFIG", "MKNOD",
   "LEASE", "AUDIT_WRITE", "VE_ADMIN", "SETFCAP", "FS_MASK"]

/-- The bit of a capability; the case of its name does not matter. -/
def Capability.index? (name : String) : Option Nat :=
  Capability.names.idxOf? (name.map Char.toUpper)

/-- The capabilities that were asked for so far. -/
structure CapabilityMask where
  /-- The bits of those to give. -/
  on : Nat
  /-- The bits of those to deny. -/
  off : Nat
  deriving DecidableEq, Repr

namespace CapabilityMask

/-- Nothing was asked for. -/
def empty : CapabilityMask := ⟨0, 0⟩

/-- Whether nothing was asked for. -/
def isEmpty (m : CapabilityMask) : Bool := m.on == 0 && m.off == 0

/-- Takes one `NAME:on|off` of the list `whole`. -/
def applyItem (whole : String) (m : CapabilityMask) (item : List Char) :
    Except CommandError CapabilityMask :=
  match cutFirst ':' item with
  | none => .error (.refused (.capabilityWithoutMode whole))
  | some (name, mode) =>
    match Capability.index? (String.ofList name) with
    | none => .error (.refused (.unknownCapability (String.ofList name)))
    | some i =>
      match Toggle.readStrict (String.ofList mode) with
      | some true => .ok { m with on := m.on ||| 1 <<< i }
      | some false => .ok { m with off := m.off ||| 1 <<< i }
      | none => .error (.refused (.capabilityMode (String.ofList mode) (String.ofList name)))

/-- Takes items in order up to the first that is refused. -/
def applyItems (whole : String) :
    List (List Char) → CapabilityMask → Except CommandError Unit × CapabilityMask
  | [], m => (.ok (), m)
  | item :: items, m =>
    match m.applyItem whole item with
    | .ok m => applyItems whole items m
    | .error e => (.error e, m)

/-- Takes a list of `NAME:on|off` items between commas. -/
def apply (m : CapabilityMask) (s : String) : Except CommandError Unit × CapabilityMask :=
  applyItems s (words (· == ',') s.toList) m

end CapabilityMask

end VmControl
