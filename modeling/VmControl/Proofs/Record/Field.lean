import VmControl.Record

/-!
# The fields of a record

A record has fields, some of which have fields of their own.  What a part of a line does not touch
is told by naming the fields that it may change: all others keep their values.

## Main definitions

* `Record.Field`: the fields of a record, down to single settings.
* `Record.ChangesOnly`: two records agree on all fields but these.

## Main statements

* `Record.ext_get`: a record is the values of its fields.
-/

namespace VmControl

/-! ## Adapters and devices -/

/-- A field of the settings of an adapter. -/
inductive Adapter.Field where
  | ifName
  | searchDomains
  | nameServers
  | addresses
  | removed
  | removeAll
  | replace
  | rules
  | setting (s : AdapterSetting)
  deriving DecidableEq

namespace Adapter

/-- What a field of an adapter holds. -/
abbrev Field.Value : Field → Type
  | .ifName => Option String
  | .searchDomains => List String
  | .nameServers => List String
  | .addresses => List String
  | .removed => List String
  | .removeAll => Bool
  | .replace => Bool
  | .rules => List FirewallRule
  | .setting s => Option s.Value

/-- The value of a field of an adapter. -/
def get (a : Adapter) : (f : Field) → f.Value
  | .ifName => a.ifName
  | .searchDomains => a.searchDomains
  | .nameServers => a.nameServers
  | .addresses => a.addresses
  | .removed => a.removed
  | .removeAll => a.removeAll
  | .replace => a.replace
  | .rules => a.rules
  | .setting s => a.settings.get? s

theorem ext_get {a a' : Adapter} (h : ∀ f, a.get f = a'.get f) : a = a' := by
  have hsettings : a.settings = a'.settings := Sheet.ext (funext fun s => h (.setting s))
  obtain ⟨ifName, domains, servers, addresses, removed, removeAll, replace, rules, settings⟩ := a
  obtain ⟨ifName', domains', servers', addresses', removed', removeAll', replace', rules',
    settings'⟩ := a'
  exact (mk.injEq ..).mpr ⟨h .ifName, h .searchDomains, h .nameServers, h .addresses, h .removed,
    h .removeAll, h .replace, h .rules, hsettings⟩

end Adapter

/-- A field of a device. -/
inductive Device.Field where
  | command
  | kind
  | name
  | blockSize
  | autoCompact
  | setting (s : DeviceSetting)
  | adapter (f : Adapter.Field)
  deriving DecidableEq

namespace Device

/-- What a field of a device holds. -/
abbrev Field.Value : Field → Type
  | .command => Option DeviceCommand
  | .kind => Option DeviceKind
  | .name => Option String
  | .blockSize => Option Nat
  | .autoCompact => Option Bool
  | .setting s => Option s.Value
  | .adapter f => f.Value

/-- The value of a field of a device. -/
def get (d : Device) : (f : Field) → f.Value
  | .command => d.command
  | .kind => d.kind
  | .name => d.name
  | .blockSize => d.blockSize
  | .autoCompact => d.autoCompact
  | .setting s => d.settings.get? s
  | .adapter f => d.adapter.get f

theorem ext_get {d d' : Device} (h : ∀ f, d.get f = d'.get f) : d = d' := by
  have hsettings : d.settings = d'.settings := Sheet.ext (funext fun s => h (.setting s))
  have hadapter : d.adapter = d'.adapter := Adapter.ext_get fun f => h (.adapter f)
  obtain ⟨command, kind, name, blockSize, autoCompact, settings, adapter⟩ := d
  obtain ⟨command', kind', name', blockSize', autoCompact', settings', adapter'⟩ := d'
  exact (mk.injEq ..).mpr ⟨h .command, h .kind, h .name, h .blockSize, h .autoCompact, hsettings,
    hadapter⟩

end Device

/-! ## Tasks -/

/-- A field of a migration. -/
inductive Migration.Field where
  | newName
  | destination
  | location
  | session
  | securityLevel
  | shellOptions
  | force
  | clone
  | removeSource
  | switchTemplate
  | changeSystemId
  | ignoreExisting
  | uncompressed
  | noTunnel
  deriving DecidableEq

namespace Migration

/-- What a field of a migration holds. -/
abbrev Field.Value : Field → Type
  | .newName => Option String
  | .destination => Login
  | .location => Option String
  | .session => Option String
  | .securityLevel => Option SecurityLevel
  | .shellOptions => List String
  | .force => Bool
  | .clone => Bool
  | .removeSource => Bool
  | .switchTemplate => Bool
  | .changeSystemId => Bool
  | .ignoreExisting => Bool
  | .uncompressed => Bool
  | .noTunnel => Bool

/-- The value of a field of a migration. -/
def get (m : Migration) : (f : Field) → f.Value
  | .newName => m.newName
  | .destination => m.destination
  | .location => m.location
  | .session => m.session
  | .securityLevel => m.securityLevel
  | .shellOptions => m.shellOptions
  | .force => m.force
  | .clone => m.clone
  | .removeSource => m.removeSource
  | .switchTemplate => m.switchTemplate
  | .changeSystemId => m.changeSystemId
  | .ignoreExisting => m.ignoreExisting
  | .uncompressed => m.uncompressed
  | .noTunnel => m.noTunnel

theorem ext_get {m m' : Migration} (h : ∀ f, m.get f = m'.get f) : m = m' := by
  cases m
  cases m'
  exact (mk.injEq ..).mpr ⟨h .newName, h .destination, h .location, h .session, h .securityLevel,
    h .shellOptions, h .force, h .clone, h .removeSource, h .switchTemplate, h .changeSystemId,
    h .ignoreExisting, h .uncompressed, h .noTunnel⟩

end Migration

/-- A field of a backup. -/
inductive Backup.Field where
  | id
  | name
  | description
  | location
  | node
  | storage
  | kind
  | uncompressed
  | keepChain
  | listFull
  | listLocal
  deriving DecidableEq

namespace Backup

/-- What a field of a backup holds. -/
abbrev Field.Value : Field → Type
  | .id => Option String
  | .name => Option String
  | .description => Option String
  | .location => Option String
  | .node => Login
  | .storage => Login
  | .kind => BackupKind
  | .uncompressed => Bool
  | .keepChain => Bool
  | .listFull => Bool
  | .listLocal => Bool

/-- The value of a field of a backup. -/
def get (b : Backup) : (f : Field) → f.Value
  | .id => b.id
  | .name => b.name
  | .description => b.description
  | .location => b.location
  | .node => b.node
  | .storage => b.storage
  | .kind => b.kind
  | .uncompressed => b.uncompressed
  | .keepChain => b.keepChain
  | .listFull => b.listFull
  | .listLocal => b.listLocal

theorem ext_get {b b' : Backup} (h : ∀ f, b.get f = b'.get f) : b = b' := by
  cases b
  cases b'
  exact (mk.injEq ..).mpr ⟨h .id, h .name, h .description, h .location, h .node, h .storage,
    h .kind, h .uncompressed, h .keepChain, h .listFull, h .listLocal⟩

end Backup

/-- A field of statistics. -/
inductive Statistics.Field where
  | filter
  | repeated
  deriving DecidableEq

namespace Statistics

/-- What a field of statistics holds. -/
abbrev Field.Value : Field → Type
  | .filter => Option String
  | .repeated => Bool

/-- The value of a field of statistics. -/
def get (s : Statistics) : (f : Field) → f.Value
  | .filter => s.filter
  | .repeated => s.repeated

theorem ext_get {s s' : Statistics} (h : ∀ f, s.get f = s'.get f) : s = s' := by
  cases s
  cases s'
  exact (mk.injEq ..).mpr ⟨h .filter, h .repeated⟩

end Statistics

/-- A field of a problem report. -/
inductive ProblemReport.Field where
  | action
  | proxy
  | noProxy
  | standAlone
  | userName
  | userEmail
  | description
  deriving DecidableEq

namespace ProblemReport

/-- What a field of a problem report holds. -/
abbrev Field.Value : Field → Type
  | .action => Option ReportAction
  | .proxy => Option Secret
  | .noProxy => Bool
  | .standAlone => Bool
  | .userName => Option String
  | .userEmail => Option String
  | .description => Option String

/-- The value of a field of a problem report. -/
def get (p : ProblemReport) : (f : Field) → f.Value
  | .action => p.action
  | .proxy => p.proxy
  | .noProxy => p.noProxy
  | .standAlone => p.standAlone
  | .userName => p.userName
  | .userEmail => p.userEmail
  | .description => p.description

theorem ext_get {p p' : ProblemReport} (h : ∀ f, p.get f = p'.get f) : p = p' := by
  cases p
  cases p'
  exact (mk.injEq ..).mpr ⟨h .action, h .proxy, h .noProxy, h .standAlone, h .userName,
    h .userEmail, h .description⟩

end ProblemReport

/-! ## The server and its networks -/

/-- A field of the settings of the server. -/
inductive Server.Field where
  | setting (s : ServerSetting)
  | force
  | device
  | backupStorage
  | offlineService
  | networkClass
  | shapingEntry
  | bandwidthEntry
  | publicKey
  | privateKey
  deriving DecidableEq

namespace Server

/-- What a field of the server holds. -/
abbrev Field.Value : Field → Type
  | .setting s => Option s.Value
  | .force => Bool
  | .device => Option String
  | .backupStorage => Option Login
  | .offlineService => Option OfflineService
  | .networkClass => Option NetworkClass
  | .shapingEntry => Option ShapingEntry
  | .bandwidthEntry => Option BandwidthEntry
  | .publicKey => Option String
  | .privateKey => Option String

/-- The value of a field of the server. -/
def get (s : Server) : (f : Field) → f.Value
  | .setting k => s.settings.get? k
  | .force => s.force
  | .device => s.device
  | .backupStorage => s.backupStorage
  | .offlineService => s.offlineService
  | .networkClass => s.networkClass
  | .shapingEntry => s.shapingEntry
  | .bandwidthEntry => s.bandwidthEntry
  | .publicKey => s.publicKey
  | .privateKey => s.privateKey

theorem ext_get {s s' : Server} (h : ∀ f, s.get f = s'.get f) : s = s' := by
  have hsettings : s.settings = s'.settings := Sheet.ext (funext fun k => h (.setting k))
  cases s
  cases s'
  exact (mk.injEq ..).mpr ⟨hsettings, h .force, h .device, h .backupStorage, h .offlineService,
    h .networkClass, h .shapingEntry, h .bandwidthEntry, h .publicKey, h .privateKey⟩

end Server

/-- A field of a virtual network. -/
inductive VirtualNetwork.Field where
  | command
  | name
  | setting (s : NetworkSetting)
  | tcp
  | udp
  deriving DecidableEq

namespace VirtualNetwork

/-- What a field of a virtual network holds. -/
abbrev Field.Value : Field → Type
  | .command => NetworkCommand
  | .name => Option String
  | .setting s => Option s.Value
  | .tcp => NatChanges
  | .udp => NatChanges

/-- The value of a field of a virtual network. -/
def get (n : VirtualNetwork) : (f : Field) → f.Value
  | .command => n.command
  | .name => n.name
  | .setting k => n.settings.get? k
  | .tcp => n.tcp
  | .udp => n.udp

theorem ext_get {n n' : VirtualNetwork} (h : ∀ f, n.get f = n'.get f) : n = n' := by
  have hsettings : n.settings = n'.settings := Sheet.ext (funext fun k => h (.setting k))
  cases n
  cases n'
  exact (mk.injEq ..).mpr ⟨h .command, h .name, hsettings, h .tcp, h .udp⟩

end VirtualNetwork

/-- A field of a private network. -/
inductive PrivateNetwork.Field where
  | command
  | name
  | addresses
  | removed
  | isGlobal
  deriving DecidableEq

namespace PrivateNetwork

/-- What a field of a private network holds. -/
abbrev Field.Value : Field → Type
  | .command => PrivateCommand
  | .name => Option String
  | .addresses => List String
  | .removed => List String
  | .isGlobal => Option Bool

/-- The value of a field of a private network. -/
def get (n : PrivateNetwork) : (f : Field) → f.Value
  | .command => n.command
  | .name => n.name
  | .addresses => n.addresses
  | .removed => n.removed
  | .isGlobal => n.isGlobal

theorem ext_get {n n' : PrivateNetwork} (h : ∀ f, n.get f = n'.get f) : n = n' := by
  cases n
  cases n'
  exact (mk.injEq ..).mpr ⟨h .command, h .name, h .addresses, h .removed, h .isGlobal⟩

end PrivateNetwork

/-! ## Things of the host -/

/-- A field of the assignment of a USB device. -/
inductive UsbAssignment.Field where
  | command
  | name
  | owner
  deriving DecidableEq

namespace UsbAssignment

/-- What a field of an assignment holds. -/
abbrev Field.Value : Field → Type
  | .command => UsbCommand
  | .name => Option String
  | .owner => Option String

/-- The value of a field of an assignment. -/
def get (u : UsbAssignment) : (f : Field) → f.Value
  | .command => u.command
  | .name => u.name
  | .owner => u.owner

theorem ext_get {u u' : UsbAssignment} (h : ∀ f, u.get f = u'.get f) : u = u' := by
  cases u
  cases u'
  exact (mk.injEq ..).mpr ⟨h .command, h .name, h .owner⟩

end UsbAssignment

/-- A field of a container template. -/
inductive Template.Field where
  | command
  | name
  | osName
  deriving DecidableEq

namespace Template

/-- What a field of a template holds. -/
abbrev Field.Value : Field → Type
  | .command => TemplateCommand
  | .name => Option String
  | .osName => Option String

/-- The value of a field of a template. -/
def get (t : Template) : (f : Field) → f.Value
  | .command => t.command
  | .name => t.name
  | .osName => t.osName

theorem ext_get {t t' : Template} (h : ∀ f, t.get f = t'.get f) : t = t' := by
  cases t
  cases t'
  exact (mk.injEq ..).mpr ⟨h .command, h .name, h .osName⟩

end Template

/-- A field of a copy of a container template. -/
inductive TemplateCopy.Field where
  | destination
  | force
  | securityLevel
  deriving DecidableEq

namespace TemplateCopy

/-- What a field of a copy holds. -/
abbrev Field.Value : Field → Type
  | .destination => Login
  | .force => Bool
  | .securityLevel => Option SecurityLevel

/-- The value of a field of a copy. -/
def get (t : TemplateCopy) : (f : Field) → f.Value
  | .destination => t.destination
  | .force => t.force
  | .securityLevel => t.securityLevel

theorem ext_get {t t' : TemplateCopy} (h : ∀ f, t.get f = t'.get f) : t = t' := by
  cases t
  cases t'
  exact (mk.injEq ..).mpr ⟨h .destination, h .force, h .securityLevel⟩

end TemplateCopy

/-! ## Records -/

namespace Record

/-- A field of a record. -/
inductive Field where
  | action
  | target
  | login
  | setting (s : Setting)
  | guest
  | kind
  | blockSize
  | argv
  | device (f : Device.Field)
  | imageFate
  | backupCommand
  | backupId
  | resources
  | capabilities
  | features
  | appTemplates
  | rates
  | expiration
  | searchDomains
  | nameServers
  | offlineServices
  | migration (f : Migration.Field)
  | backup (f : Backup.Field)
  | statistics (f : Statistics.Field)
  | report (f : ProblemReport.Field)
  | securityLevel
  | company
  | key
  | batch
  | server (f : Server.Field)
  | passwordRules
  | network (f : VirtualNetwork.Field)
  | privateNetwork (f : PrivateNetwork.Field)
  | usb (f : UsbAssignment.Field)
  | template (f : Template.Field)
  | templateCopy (f : TemplateCopy.Field)
  deriving DecidableEq

/-- What a field of a record holds. -/
abbrev Field.Value : Field → Type
  | .action => Action
  | .target => Option String
  | .login => Login
  | .setting s => Option s.Value
  | .guest => Option Guest
  | .kind => GuestKind
  | .blockSize => Option Nat
  | .argv => List String
  | .device f => f.Value
  | .imageFate => ImageFate
  | .backupCommand => Option DeviceCommand
  | .backupId => Option String
  | .resources => List ResourceLimit
  | .capabilities => CapabilityMask
  | .features => Features
  | .appTemplates => List String
  | .rates => List ClassRate
  | .expiration => Expiration
  | .searchDomains => List String
  | .nameServers => List String
  | .offlineServices => List String
  | .migration f => f.Value
  | .backup f => f.Value
  | .statistics f => f.Value
  | .report f => f.Value
  | .securityLevel => Option SecurityLevel
  | .company => Option String
  | .key => Option String
  | .batch => Bool
  | .server f => f.Value
  | .passwordRules => PasswordRules
  | .network f => f.Value
  | .privateNetwork f => f.Value
  | .usb f => f.Value
  | .template f => f.Value
  | .templateCopy f => f.Value

/-- The value of a field of a record. -/
def get (r : Record) : (f : Field) → f.Value
  | .action => r.action
  | .target => r.target
  | .login => r.login
  | .setting s => r.settings.get? s
  | .guest => r.guest
  | .kind => r.kind
  | .blockSize => r.blockSize
  | .argv => r.argv
  | .device f => r.device.get f
  | .imageFate => r.imageFate
  | .backupCommand => r.backupCommand
  | .backupId => r.backupId
  | .resources => r.resources
  | .capabilities => r.capabilities
  | .features => r.features
  | .appTemplates => r.appTemplates
  | .rates => r.rates
  | .expiration => r.expiration
  | .searchDomains => r.searchDomains
  | .nameServers => r.nameServers
  | .offlineServices => r.offlineServices
  | .migration f => r.migration.get f
  | .backup f => r.backup.get f
  | .statistics f => r.statistics.get f
  | .report f => r.report.get f
  | .securityLevel => r.securityLevel
  | .company => r.company
  | .key => r.key
  | .batch => r.batch
  | .server f => r.server.get f
  | .passwordRules => r.passwordRules
  | .network f => r.network.get f
  | .privateNetwork f => r.privateNetwork.get f
  | .usb f => r.usb.get f
  | .template f => r.template.get f
  | .templateCopy f => r.templateCopy.get f

/-- **A record is the values of its fields**: there is nothing else to it. -/
theorem ext_get {r r' : Record} (h : ∀ f, r.get f = r'.get f) : r = r' := by
  have hsettings : r.settings = r'.settings := Sheet.ext (funext fun s => h (.setting s))
  have hdevice : r.device = r'.device := Device.ext_get fun f => h (.device f)
  have hmigration : r.migration = r'.migration := Migration.ext_get fun f => h (.migration f)
  have hbackup : r.backup = r'.backup := Backup.ext_get fun f => h (.backup f)
  have hstatistics : r.statistics = r'.statistics := Statistics.ext_get fun f => h (.statistics f)
  have hreport : r.report = r'.report := ProblemReport.ext_get fun f => h (.report f)
  have hserver : r.server = r'.server := Server.ext_get fun f => h (.server f)
  have hnetwork : r.network = r'.network := VirtualNetwork.ext_get fun f => h (.network f)
  have hprivate : r.privateNetwork = r'.privateNetwork :=
    PrivateNetwork.ext_get fun f => h (.privateNetwork f)
  have husb : r.usb = r'.usb := UsbAssignment.ext_get fun f => h (.usb f)
  have htemplate : r.template = r'.template := Template.ext_get fun f => h (.template f)
  have hcopy : r.templateCopy = r'.templateCopy := TemplateCopy.ext_get fun f => h (.templateCopy f)
  cases r
  cases r'
  exact (mk.injEq ..).mpr ⟨h .action, h .target, h .login, hsettings, h .guest, h .kind,
    h .blockSize, h .argv, hdevice, h .imageFate, h .backupCommand, h .backupId, h .resources,
    h .capabilities, h .features, h .appTemplates, h .rates, h .expiration, h .searchDomains,
    h .nameServers, h .offlineServices, hmigration, hbackup, hstatistics, hreport, h .securityLevel,
    h .company, h .key, h .batch, hserver, h .passwordRules, hnetwork, hprivate, husb, htemplate,
    hcopy⟩

/-! ## Changes -/

/-- Whether the second record differs from the first one in these fields at most. -/
def ChangesOnly (fields : List Field) (r r' : Record) : Prop := ∀ f ∉ fields, r'.get f = r.get f

theorem ChangesOnly.refl (fields : List Field) (r : Record) : ChangesOnly fields r r :=
  fun _ _ => rfl

theorem ChangesOnly.trans {fields : List Field} {r r' r'' : Record} (h : ChangesOnly fields r r')
    (h' : ChangesOnly fields r' r'') : ChangesOnly fields r r'' :=
  fun f hf => (h' f hf).trans (h f hf)

/-- What may change may be told too generously. -/
theorem ChangesOnly.mono {fields fields' : List Field} {r r' : Record}
    (h : ChangesOnly fields r r') (hsub : ∀ f ∈ fields, f ∈ fields') : ChangesOnly fields' r r' :=
  fun f hf => h f fun hmem => hf (hsub f hmem)

/-- Nothing changes if no field may. -/
theorem ChangesOnly.eq {r r' : Record} (h : ChangesOnly [] r r') : r' = r :=
  ext_get fun f => h f List.not_mem_nil

theorem changesOnly_target (r : Record) (target : Option String) :
    ChangesOnly [.target] r { r with target := target } := by
  intro f hf
  cases f <;> first | rfl | exact absurd (List.mem_singleton.2 rfl) hf

theorem changesOnly_login (r : Record) (login : Login) :
    ChangesOnly [.login] r { r with login := login } := by
  intro f hf
  cases f <;> first | rfl | exact absurd (List.mem_singleton.2 rfl) hf

/-! A part of a record that is put in place changes the field in which it differs. -/

theorem changesOnly_migration {f : Migration.Field} {r : Record} {m : Migration}
    (h : ∀ g, g ≠ f → m.get g = r.migration.get g) :
    ChangesOnly [.migration f] r { r with migration := m } := by
  intro g hg
  cases g with
  | migration g => exact h g fun h => hg (h ▸ List.mem_singleton.2 rfl)
  | _ => rfl

theorem changesOnly_backup {f : Backup.Field} {r : Record} {b : Backup}
    (h : ∀ g, g ≠ f → b.get g = r.backup.get g) :
    ChangesOnly [.backup f] r { r with backup := b } := by
  intro g hg
  cases g with
  | backup g => exact h g fun h => hg (h ▸ List.mem_singleton.2 rfl)
  | _ => rfl

theorem changesOnly_statistics {f : Statistics.Field} {r : Record} {s : Statistics}
    (h : ∀ g, g ≠ f → s.get g = r.statistics.get g) :
    ChangesOnly [.statistics f] r { r with statistics := s } := by
  intro g hg
  cases g with
  | statistics g => exact h g fun h => hg (h ▸ List.mem_singleton.2 rfl)
  | _ => rfl

theorem changesOnly_report {f : ProblemReport.Field} {r : Record} {p : ProblemReport}
    (h : ∀ g, g ≠ f → p.get g = r.report.get g) :
    ChangesOnly [.report f] r { r with report := p } := by
  intro g hg
  cases g with
  | report g => exact h g fun h => hg (h ▸ List.mem_singleton.2 rfl)
  | _ => rfl

theorem changesOnly_server {f : Server.Field} {r : Record} {s : Server}
    (h : ∀ g, g ≠ f → s.get g = r.server.get g) :
    ChangesOnly [.server f] r { r with server := s } := by
  intro g hg
  cases g with
  | server g => exact h g fun h => hg (h ▸ List.mem_singleton.2 rfl)
  | _ => rfl

theorem changesOnly_privateNetwork {f : PrivateNetwork.Field} {r : Record} {n : PrivateNetwork}
    (h : ∀ g, g ≠ f → n.get g = r.privateNetwork.get g) :
    ChangesOnly [.privateNetwork f] r { r with privateNetwork := n } := by
  intro g hg
  cases g with
  | privateNetwork g => exact h g fun h => hg (h ▸ List.mem_singleton.2 rfl)
  | _ => rfl

theorem changesOnly_templateCopy {f : TemplateCopy.Field} {r : Record} {t : TemplateCopy}
    (h : ∀ g, g ≠ f → t.get g = r.templateCopy.get g) :
    ChangesOnly [.templateCopy f] r { r with templateCopy := t } := by
  intro g hg
  cases g with
  | templateCopy g => exact h g fun h => hg (h ▸ List.mem_singleton.2 rfl)
  | _ => rfl

/-- A setting that is entered is the only one that changes. -/
theorem changesOnly_set (r : Record) (s : Setting) (v : s.Value) :
    ChangesOnly [.setting s] r (r.set s v) := by
  intro f hf
  cases f with
  | setting s' => exact Sheet.get?_insert_of_ne _ _ fun h => hf (h ▸ List.mem_singleton.2 rfl)
  | _ => rfl

theorem changesOnly_mark (r : Record) (m : Mark) :
    ChangesOnly [.setting (.mark m)] r (r.mark m) :=
  changesOnly_set r (.mark m) ()

/-- So is a property of the device. -/
theorem changesOnly_deviceSet (r : Record) (s : DeviceSetting) (v : s.Value) :
    ChangesOnly [.device (.setting s)] r { r with device := r.device.set s v } := by
  intro f hf
  cases f with
  | device f =>
    cases f with
    | setting s' => exact Sheet.get?_insert_of_ne _ _ fun h => hf (h ▸ List.mem_singleton.2 rfl)
    | _ => rfl
  | _ => rfl

/-- So is a setting of the server. -/
theorem changesOnly_serverSet (r : Record) (s : ServerSetting) (v : s.Value) :
    ChangesOnly [.server (.setting s)] r { r with server := r.server.set s v } :=
  changesOnly_server fun g hg => by
    cases g with
    | setting s' => exact Sheet.get?_insert_of_ne _ _ fun h => hg (h ▸ rfl)
    | _ => rfl

/-- So is a setting of the virtual network. -/
theorem changesOnly_networkSet (r : Record) (s : NetworkSetting) (v : s.Value) :
    ChangesOnly [.network (.setting s)] r { r with network := r.network.set s v } := by
  intro f hf
  cases f with
  | network f =>
    cases f with
    | setting s' => exact Sheet.get?_insert_of_ne _ _ fun h => hf (h ▸ List.mem_singleton.2 rfl)
    | _ => rfl
  | _ => rfl

end Record

end VmControl
