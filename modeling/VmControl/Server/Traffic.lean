import VmControl.Error
import VmControl.Value.Address

/-!
# Services and traffic classes of a server

Entries of colon-separated fields: the services that are reachable while a container is offline,
the networks of a traffic class, and the rates and the bandwidth of host interfaces.
-/

namespace VmControl

open Numeral Text

/-- The fields between colons, if none is empty. -/
def colonFields? (s : String) : Option (List (List Char)) :=
  let parts := fields ':' s.toList
  if [] ∈ parts then none else some parts

/-- A service for offline management. -/
structure OfflineService where
  /-- Its name. -/
  name : String
  /-- Its port; an entry to be removed has none. -/
  port : Option Nat
  /-- Whether containers have it unless told otherwise. -/
  usedByDefault : Bool
  /-- Whether the entry is to be removed. -/
  delete : Bool
  deriving DecidableEq, Repr

namespace OfflineService

/-- Takes `PORT[:default]` apart. -/
def splitDefault (rest : List Char) : Option (List Char × Bool) :=
  match cutFirst ':' rest with
  | none => some (rest, false)
  | some (port, word) => if word = "default".toList then some (port, true) else none

/-- Reads `NAME:PORT[:default]`. -/
def read? (s : String) : Option OfflineService := do
  let (name, rest) ← cutFirst ':' s.toList
  let (port, usedByDefault) ← splitDefault rest
  let port ← readPort port
  if name = [] then none else some ⟨String.ofList name, some port, usedByDefault, false⟩

/-- Reads an entry, or tells that the text is none. -/
def read (s : String) : Except CommandError OfflineService :=
  match read? s with
  | some e => .ok e
  | none => .error (.refused (.offlineService s))

/-- The entry that removes a service. -/
def removal (name : String) : OfflineService := ⟨name, none, false, true⟩

end OfflineService

/-- A network that belongs to a traffic class. -/
structure NetworkClass where
  /-- The class. -/
  classId : Nat
  /-- The network. -/
  network : String
  /-- Whether the entry is to be removed. -/
  delete : Bool
  deriving DecidableEq, Repr

/-- Reads `CLASS:NETWORK`. -/
def NetworkClass.read (s : String) (delete : Bool) : Except CommandError NetworkClass :=
  let entry := match colonFields? s with
    | some [classId, network] =>
      (unsigned word32 classId).map fun n => (⟨n, String.ofList network, delete⟩ : NetworkClass)
    | _ => none
  match entry with
  | some e => .ok e
  | none => .error (.refused (.shaping s))

/-- The rates of a traffic class on a host interface. -/
structure ShapingEntry where
  /-- The interface. -/
  device : String
  /-- The class. -/
  classId : Nat
  /-- The rate of all containers together. -/
  totalRate : Nat
  /-- The rate that each container is sure of. -/
  rate : Nat
  /-- Whether the entry is to be removed. -/
  delete : Bool
  deriving DecidableEq, Repr

namespace ShapingEntry

/-- Reads four fields. -/
def ofFields (delete : Bool) : List (List Char) → Option ShapingEntry
  | [device, classId, totalRate, rate] => do
    let classId ← unsigned word32 classId
    let totalRate ← unsigned word32 totalRate
    let rate ← unsigned word32 rate
    return ⟨String.ofList device, classId, totalRate, rate, delete⟩
  | _ => none

/-- Reads `DEVICE:CLASS:TOTALRATE:RATE`. -/
def read (s : String) (delete : Bool) : Except CommandError ShapingEntry :=
  match (colonFields? s).bind (ofFields delete) with
  | some e => .ok e
  | none => .error (.refused (.shaping s))

end ShapingEntry

/-- The bandwidth of a host interface. -/
structure BandwidthEntry where
  /-- The interface. -/
  device : String
  /-- Its bandwidth. -/
  bandwidth : Nat
  /-- Whether the entry is to be removed. -/
  delete : Bool
  deriving DecidableEq, Repr

/-- Reads `DEVICE:BANDWIDTH`. -/
def BandwidthEntry.read (s : String) (delete : Bool) : Except CommandError BandwidthEntry :=
  let entry := match colonFields? s with
    | some [device, bandwidth] =>
      (unsigned word32 bandwidth).map fun n =>
        (⟨String.ofList device, n, delete⟩ : BandwidthEntry)
    | _ => none
  match entry with
  | some e => .ok e
  | none => .error (.refused (.bandwidth s))

end VmControl
