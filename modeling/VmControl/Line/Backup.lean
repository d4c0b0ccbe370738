import VmControl.Line.Basic

/-!
# Backup lines

Making backups of one guest or of all guests of a host, and restoring, listing and deleting them.
-/

namespace VmControl

open Options

namespace Backup

/-! ## Options -/

/-- Takes the host that keeps backups.  It is wiped from the line. -/
def takeStorage (m : Match OptionId) (r : Record) : Reading Record := do
  let login ← readLogin m
  return { r with backup := { r.backup with storage := r.backup.storage.assign login } }

/-- Takes the trust in the network. -/
def takeSecurityLevel (m : Match OptionId) (r : Record) : Reading Record := do
  let level ← readSecurityLevel m
  return { r with securityLevel := some level }

/-- Names the backup. -/
def takeId (m : Match OptionId) (r : Record) : Reading Record :=
  return { r with backup := { r.backup with id := some (uuidOrVerbatim m.text) } }

/-- Takes an option of making backups. -/
def takeMakingOption (m : Match OptionId) (r : Record) : Reading Record :=
  match m.id with
  | .backupKind kind => return { r with backup := { r.backup with kind := kind } }
  | .storage => takeStorage m r
  | .securityLevel => takeSecurityLevel m r
  | .setting (.text .description) =>
    return { r with backup := { r.backup with description := some m.text } }
  | .uncompressed => return { r with backup := { r.backup with uncompressed := true } }
  | _ => refuseOption m

/-- Takes an option of restoring backups.  One of them asks for a list instead. -/
def takeRestoringOption (m : Match OptionId) (r : Record) : Reading Record :=
  match m.id with
  | .backupId => takeId m r
  | .backupTarget => return { r with target := some m.text }
  | .setting (.text .newName) =>
    return { r with backup := { r.backup with name := some m.text } }
  | .backupList => return { r with action := .backupList }
  | .backupListFull => return { r with backup := { r.backup with listFull := true } }
  | .storage => takeStorage m r
  | .securityLevel => takeSecurityLevel m r
  | .setting (.text .location) => do
    let location ← Reading.ofExcept (readLocation m.name m.text)
    return { r with backup := { r.backup with location := some location } }
  | _ => refuseOption m

/-- Takes an option of deleting backups. -/
def takeDeletingOption (m : Match OptionId) (r : Record) : Reading Record :=
  match m.id with
  | .backupId => takeId m r
  | .storage => takeStorage m r
  | .securityLevel => takeSecurityLevel m r
  | .keepChain => return { r with backup := { r.backup with keepChain := true } }
  | _ => refuseOption m

/-- Takes an option of listing backups. -/
def takeListingOption (m : Match OptionId) (r : Record) : Reading Record :=
  match m.id with
  | .backupListFull => return { r with backup := { r.backup with listFull := true } }
  | .setting (.mark .listNoHeader) => return r.mark .listNoHeader
  | .backupId => takeId m r
  | .localGuests => return { r with backup := { r.backup with listLocal := true } }
  | .storage => takeStorage m r
  | .securityLevel => takeSecurityLevel m r
  | .guestKind => do
    let kind ← Reading.ofExcept (Setting.choose m.name m.text (GuestKind.read? true m.text))
    return { r with kind := kind }
  | _ => refuseOption m

/-! ## Arguments -/

/-- Takes the one guest that a line may name.  It does not look like an option. -/
def takeOnlyTarget (_ : Nat) (token : String) (r : Record) : Reading Record :=
  if token.toList.head? = some '-' then throw (.unrecognized token)
  else if r.target.isSome then throw (.refused .secondTarget)
  else return { r with target := some token }

/-- Takes a guest, the last one counting. -/
def takeLastTarget (_ : Nat) (token : String) (r : Record) : Reading Record :=
  return { r with target := some token }

/-! ## Grammars -/

/-- How the options of making backups are taken. -/
def makingGrammar : Grammar Record := recordGrammar refuseArgument takeMakingOption

/-- How a line for restoring a backup is taken. -/
def restoringGrammar : Grammar Record := recordGrammar takeOnlyTarget takeRestoringOption

/-- How a line for deleting backups is taken. -/
def deletingGrammar : Grammar Record := recordGrammar takeOnlyTarget takeDeletingOption

/-- How a line for listing backups is taken. -/
def listingGrammar : Grammar Record := recordGrammar takeLastTarget takeListingOption

end Backup

/-! ## Whole lines -/

/-- Reads the line for a backup of the guest in the argument at `offset`.  The guest is read after
the options. -/
def readBackupLine (action : Action) (table : CommandTable) (offset : Nat) (args : List String) :
    Reading Record := do
  match args[offset]? with
  | none => throw (.refused .backupUsage)
  | some guest =>
    let stream := table.read args (offset + 1)
    let record ← Backup.makingGrammar.read (Record.ofAction action) stream
    let (login, target) ← readTarget offset "node" guest
    let backup := { record.backup with node := record.backup.node.assignTarget login }
    return { record with target := some target, backup := backup }

/-- Reads the line for backups of all guests, the options starting at `start`. -/
def readNodeBackupLine (table : CommandTable) (start : Nat) (args : List String) :
    Reading Record :=
  Backup.makingGrammar.read (Record.ofAction .serverBackupNode) (table.read args start)

/-- Reads a line that has something from `start` on, which may be an option. -/
def readBackupChoice (grammar : Grammar Record) (action : Action) (table : CommandTable)
    (start : Nat) (args : List String) : Reading Record :=
  if args.length ≤ start then throw (.refused .backupUsage)
  else grammar.read (Record.ofAction action) (table.read args start)

/-- Reads the line for restoring a backup. -/
def readRestoreLine : Action → CommandTable → Nat → List String → Reading Record :=
  readBackupChoice Backup.restoringGrammar

/-- Reads the line for deleting backups. -/
def readBackupDeleteLine : Action → CommandTable → Nat → List String → Reading Record :=
  readBackupChoice Backup.deletingGrammar

/-- Reads the line for listing backups, of all kinds of guests unless told otherwise. -/
def readBackupListLine (action : Action) (table : CommandTable) (offset : Nat)
    (args : List String) : Reading Record :=
  let record := Record.ofAction action
  Backup.listingGrammar.read { record with kind := .all } (table.read args (offset + 1))

end VmControl
