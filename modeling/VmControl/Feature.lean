import VmControl.Error
import VmControl.Sheet
import VmControl.Value.Size
import VmControl.Value.Toggle

/-!
# Features

The features of a guest that can be switched or set, and what a list of such settings comes to.
Machines and containers have features of their own, and one list cannot mix them.  A feature is a
bit of its class: `Features.known` has the bits that were mentioned and `Features.mask` those that
were switched on.
-/

namespace VmControl

open Numeral Text

/-- What kind of guest a feature belongs to. -/
inductive FeatureClass where
  | machine
  | container
  deriving DecidableEq, Repr

/-- A feature that has a number. -/
inductive FeatureNumber where
  | timeSyncInterval
  | smartGuardInterval
  | smartGuardMaxSnapshots
  deriving DecidableEq, Repr

/-- How a feature is set. -/
inductive FeatureKind where
  /-- On or off. -/
  | toggle
  /-- By a number. -/
  | number (n : FeatureNumber)
  deriving DecidableEq, Repr

/-- A feature of a guest. -/
structure Feature where
  /-- The name that selects it. -/
  name : String
  /-- The kind of guest that has it. -/
  owner : FeatureClass
  /-- Its place among the bits of its class. -/
  position : Nat
  /-- How it is set. -/
  kind : FeatureKind
  deriving DecidableEq, Repr

/-- The bit of a feature in the masks of its class. -/
def Feature.bit (f : Feature) : Nat := 1 <<< f.position

/-- All features. -/
def Feature.all : List Feature :=
  [⟨"auto_capture_release_mouse", .machine, 0, .toggle⟩,
   ⟨"share_clipboard", .machine, 1, .toggle⟩,
   ⟨"time_synchronization", .machine, 2, .toggle⟩,
   ⟨"time_sync_smart_mode", .machine, 3, .toggle⟩,
   ⟨"shared_profile", .machine, 4, .toggle⟩,
   ⟨"use_desktop", .machine, 5, .toggle⟩,
   ⟨"use_documents", .machine, 6, .toggle⟩,
   ⟨"use_pictures", .machine, 7, .toggle⟩,
   ⟨"use_music", .machine, 8, .toggle⟩,
   ⟨"time_sync_interval", .machine, 9, .number .timeSyncInterval⟩,
   ⟨"smart_guard", .machine, 10, .toggle⟩,
   ⟨"smart_guard_notify", .machine, 11, .toggle⟩,
   ⟨"smart_guard_interval", .machine, 12, .number .smartGuardInterval⟩,
   ⟨"smart_guard_max_snapshots", .machine, 13, .number .smartGuardMaxSnapshots⟩,
   ⟨"smart_mount", .machine, 14, .toggle⟩,
   ⟨"smart_mount_external_disks", .machine, 15, .toggle⟩,
   ⟨"smart_mount_external_dvds", .machine, 16, .toggle⟩,
   ⟨"smart_mount_network_shares", .machine, 17, .toggle⟩,
   ⟨"sysfs", .container, 0, .toggle⟩,
   ⟨"nfs", .container, 1, .toggle⟩,
   ⟨"sit", .container, 2, .toggle⟩,
   ⟨"ipip", .container, 3, .toggle⟩,
   ⟨"ppp", .container, 4, .toggle⟩,
   ⟨"ipgre", .container, 5, .toggle⟩,
   ⟨"bridge", .container, 6, .toggle⟩,
   ⟨"nfsd", .container, 7, .toggle⟩]

/-- The feature with this name. -/
def Feature.find? (name : String) : Option Feature := Feature.all.find? (·.name == name)

/-- The features that were mentioned so far. -/
structure Features where
  /-- The class that they all belong to, once there is one. -/
  owner : Option FeatureClass
  /-- The bits of the features that were mentioned. -/
  known : Nat
  /-- The bits of the features that are on. -/
  mask : Nat
  /-- The numbers that were given. -/
  numbers : Sheet fun _ : FeatureNumber => Nat

namespace Features

/-- No feature was mentioned. -/
def empty : Features := ⟨none, 0, 0, ∅⟩

instance : Inhabited Features := ⟨empty⟩

/-- Whether any feature was mentioned. -/
def isSet (fs : Features) : Bool := fs.known != 0

/-- Sets the feature to a mode.  The features keep the mention even if the mode is refused. -/
def setMode (fs : Features) (f : Feature) (mode : String) : Except CommandError Unit × Features :=
  let fs := { fs with owner := some f.owner, known := fs.known ||| f.bit }
  let refusal := CommandError.refused (.featureMode mode f.name)
  match f.kind with
  | .toggle =>
    match Toggle.read mode with
    | some true => (.ok (), { fs with mask := fs.mask ||| f.bit })
    | some false => (.ok (), { fs with mask := fs.mask &&& (fs.mask ^^^ f.bit) })
    | none => (.error refusal, fs)
  | .number n =>
    match digits word32 mode.toList with
    | some v => (.ok (), { fs with numbers := fs.numbers.insert n v })
    | none => (.error refusal, fs)

/-- Takes one `NAME:MODE`. -/
def applyItem (fs : Features) (item : List Char) : Except CommandError Unit × Features :=
  match cutFirst ':' item with
  | none => (.error (.refused (.featureWithoutMode (String.ofList item))), fs)
  | some (name, mode) =>
    let name := String.ofList name
    match Feature.find? name with
    | none => (.error (.refused (.unknownFeature name)), fs)
    | some f =>
      if fs.owner.any (· != f.owner) then (.error (.refused (.mixedFeatures name)), fs)
      else fs.setMode f (String.ofList mode)

/-- Takes items in order up to the first that is refused. -/
def applyItems : List (List Char) → Features → Except CommandError Unit × Features
  | [], fs => (.ok (), fs)
  | item :: items, fs =>
    match fs.applyItem item with
    | (.ok (), fs) => applyItems items fs
    | (.error e, fs) => (.error e, fs)

/-- Takes a list of `NAME:MODE` items between commas or spaces. -/
def apply (fs : Features) (s : String) : Except CommandError Unit × Features :=
  applyItems (words (fun c => c == ',' || c == ' ') s.toList) fs

end Features

end VmControl
