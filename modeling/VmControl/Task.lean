import VmControl.Login
import VmControl.Setting.Choice

/-!
# Tasks

What migrations, backups, statistics and problem reports are told besides their target.
-/

namespace VmControl

/-- A migration to another host. -/
structure Migration where
  /-- The name that the guest gets there. -/
  newName : Option String
  /-- The host to migrate to. -/
  destination : Login
  /-- The directory for the guest there. -/
  location : Option String
  /-- The session that the migration is part of. -/
  session : Option String
  /-- How far the network is trusted. -/
  securityLevel : Option SecurityLevel
  /-- The options of the remote shell. -/
  shellOptions : List String
  /-- Whether checks are skipped. -/
  force : Bool
  /-- Whether the source is kept. -/
  clone : Bool
  /-- Whether the source is removed. -/
  removeSource : Bool
  /-- Whether a template becomes a guest, or the other way round. -/
  switchTemplate : Bool
  /-- Whether the copy gets a new system id. -/
  changeSystemId : Bool
  /-- Whether files that are there already may be replaced. -/
  ignoreExisting : Bool
  /-- Whether the data goes uncompressed. -/
  uncompressed : Bool
  /-- Whether the data goes without a tunnel. -/
  noTunnel : Bool
  deriving DecidableEq

/-- A migration of which nothing is told. -/
def Migration.empty : Migration :=
  ⟨none, ∅, none, none, none, [], false, false, false, false, false, false, false, false⟩

/-- What a backup holds. -/
inductive BackupKind where
  | full
  | incremental
  | differential
  deriving DecidableEq, Repr

/-- A backup, or the backups to choose from. -/
structure Backup where
  /-- The backup itself. -/
  id : Option String
  /-- The name that the restored guest gets. -/
  name : Option String
  /-- What the user says about it. -/
  description : Option String
  /-- The directory for the restored guest. -/
  location : Option String
  /-- The host of the guest. -/
  node : Login
  /-- The host that keeps the backup. -/
  storage : Login
  /-- What it holds. -/
  kind : BackupKind
  /-- Whether it goes uncompressed. -/
  uncompressed : Bool
  /-- Whether the backups that build on it are kept. -/
  keepChain : Bool
  /-- Whether every detail is listed. -/
  listFull : Bool
  /-- Whether only guests of this host are listed. -/
  listLocal : Bool
  deriving DecidableEq

/-- A backup of which nothing is told. -/
def Backup.empty : Backup :=
  ⟨none, none, none, none, ∅, ∅, .incremental, false, false, false, false⟩

/-- Which performance counters are shown. -/
structure Statistics where
  /-- The pattern of their names. -/
  filter : Option String
  /-- Whether they are shown again and again. -/
  repeated : Bool
  deriving DecidableEq, Repr

/-- All counters, once. -/
def Statistics.empty : Statistics := ⟨none, false⟩

/-- Where a problem report goes. -/
inductive ReportAction where
  /-- It is sent off. -/
  | send
  /-- It is printed. -/
  | dump
  deriving DecidableEq, Repr

/-- A problem report. -/
structure ProblemReport where
  /-- Where it goes, the last option counting. -/
  action : Option ReportAction
  /-- The proxy that it is sent through. -/
  proxy : Option Secret
  /-- Whether no proxy is used. -/
  noProxy : Bool
  /-- Whether it is about a host without a server. -/
  standAlone : Bool
  /-- Who reports. -/
  userName : Option String
  /-- Where an answer goes. -/
  userEmail : Option String
  /-- What the user says. -/
  description : Option String
  deriving DecidableEq

/-- A report of which nothing is told. -/
def ProblemReport.empty : ProblemReport := ⟨none, none, false, false, none, none, none⟩

end VmControl
