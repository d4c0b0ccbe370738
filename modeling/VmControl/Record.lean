import VmControl.Action
import VmControl.Capability
import VmControl.Device.Basic
import VmControl.Expiration
import VmControl.Feature
import VmControl.Guest
import VmControl.Host
import VmControl.Network.Private
import VmControl.Network.Virtual
import VmControl.Resource
import VmControl.Server.Basic
import VmControl.Task

/-!
# Records

A record is all that an accepted command line says.  It starts empty, and every option and
argument adds to it.  What was not mentioned stays apart from every value that can be mentioned:
it is `none`, an empty list, or no entry of a sheet.
-/

namespace VmControl

/-- What a command line says. -/
structure Record where
  /-- What is to be done. -/
  action : Action
  /-- The machine or container. -/
  target : Option String
  /-- The host that the command runs on. -/
  login : Login
  /-- The settings that one option each decides. -/
  settings : Settings
  /-- The guest system. -/
  guest : Option Guest
  /-- The kind of guest. -/
  kind : GuestKind
  /-- The block size of new disk images. -/
  blockSize : Option Nat
  /-- The command to run inside the guest. -/
  argv : List String
  /-- The device. -/
  device : Device
  /-- What becomes of the image of a removed disk. -/
  imageFate : ImageFate
  /-- What is to be done to a backup that is attached as a disk. -/
  backupCommand : Option DeviceCommand
  /-- That backup. -/
  backupId : Option String
  /-- The limits of a container, in order. -/
  resources : List ResourceLimit
  /-- The capabilities of a container. -/
  capabilities : CapabilityMask
  /-- The features of a guest. -/
  features : Features
  /-- The application templates, in order. -/
  appTemplates : List String
  /-- The rates of traffic classes, in order. -/
  rates : List ClassRate
  /-- When the guest expires. -/
  expiration : Expiration
  /-- The domains that names are looked up in. -/
  searchDomains : List String
  /-- The servers that look up names. -/
  nameServers : List String
  /-- The services that stay reachable offline, in order. -/
  offlineServices : List String
  /-- The migration. -/
  migration : Migration
  /-- The backup. -/
  backup : Backup
  /-- The performance counters. -/
  statistics : Statistics
  /-- The problem report. -/
  report : ProblemReport
  /-- How far the network is trusted. -/
  securityLevel : Option SecurityLevel
  /-- The name that a license is issued to. -/
  company : Option String
  /-- The license key. -/
  key : Option String
  /-- Whether no question is asked. -/
  batch : Bool
  /-- The server. -/
  server : Server
  /-- The commands that ask for a password. -/
  passwordRules : PasswordRules
  /-- The virtual network. -/
  network : VirtualNetwork
  /-- The private network. -/
  privateNetwork : PrivateNetwork
  /-- The USB device. -/
  usb : UsbAssignment
  /-- The container template. -/
  template : Template
  /-- The copy of a container template. -/
  templateCopy : TemplateCopy

namespace Record

/-- The record of an action of which nothing else is said. -/
def ofAction (action : Action) : Record where
  action := action
  target := none
  login := ∅
  settings := ∅
  guest := none
  kind := .all
  blockSize := none
  argv := []
  device := ∅
  imageFate := .detach
  backupCommand := none
  backupId := none
  resources := []
  capabilities := .empty
  features := .empty
  appTemplates := []
  rates := []
  expiration := .empty
  searchDomains := []
  nameServers := []
  offlineServices := []
  migration := .empty
  backup := .empty
  statistics := .empty
  report := .empty
  securityLevel := none
  company := none
  key := none
  batch := false
  server := ∅
  passwordRules := ∅
  network := ∅
  privateNetwork := .empty
  usb := .empty
  template := .empty
  templateCopy := .empty

/-- What stands for a line that was turned down. -/
def invalid : Record := ofAction .invalid

instance : Inhabited Record := ⟨invalid⟩

/-- Whether the record comes from an accepted line. -/
def isValid (r : Record) : Bool := r.action != .invalid

/-- The setting entered. -/
def set (r : Record) (s : Setting) (v : s.Value) : Record :=
  { r with settings := r.settings.insert s v }

/-- The mark set. -/
def mark (r : Record) (m : Mark) : Record := r.set (.mark m) ()

/-- Whether a mark is set. -/
def has (r : Record) (m : Mark) : Bool := r.settings.has (.mark m)

/-- The text of a setting, if it is there. -/
def text? (r : Record) (t : TextSetting) : Option String := r.settings.get? (.text t)

/-- Whether the text of a setting is there. -/
def hasText (r : Record) (t : TextSetting) : Bool := r.settings.has (.text t)

end Record

end VmControl
