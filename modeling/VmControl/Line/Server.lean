import VmControl.Line.Basic

/-!
# Lines about the server

Settings, information, licenses and whatever else concerns the server as a whole.
-/

namespace VmControl

open Options

namespace Server

/-- Reads the text of a key file.  The empty path stands for no key. -/
def readKey (path : String) : Reading String :=
  if path = "" then return "" else Reading.readFile path

/-- Takes the host that keeps backups.  It is wiped from the line. -/
def takeStorage (m : Match OptionId) (s : Server) : Reading Server := do
  let login ← readLogin m
  return { s with backupStorage := some ((s.backupStorage.getD ∅).assign login) }

/-- Takes an entry of an offline service or of a traffic class, if the option is for one. -/
def takeEntry? (m : Match OptionId) (s : Server) : Option (Except CommandError Server) :=
  let value := m.text
  match m.id with
  | .addService => some ((OfflineService.read value).map fun e =>
    { s with offlineService := some e })
  | .deleteService => some (.ok { s with offlineService := some (.removal value) })
  | .addClass => some ((NetworkClass.read value false).map fun e =>
    { s with networkClass := some e })
  | .deleteClass => some ((NetworkClass.read value true).map fun e =>
    { s with networkClass := some e })
  | .addShaping => some ((ShapingEntry.read value false).map fun e =>
    { s with shapingEntry := some e })
  | .deleteShaping => some ((ShapingEntry.read value true).map fun e =>
    { s with shapingEntry := some e })
  | .addBandwidth => some ((BandwidthEntry.read value false).map fun e =>
    { s with bandwidthEntry := some e })
  | .deleteBandwidth => some ((BandwidthEntry.read value true).map fun e =>
    { s with bandwidthEntry := some e })
  | _ => none

/-- Takes an option of the server. -/
def takeOption (m : Match OptionId) (r : Record) : Reading Record :=
  let put (server : Server) : Reading Record := return { r with server := server }
  match m.id with
  | .server s => do
    let v ← Reading.ofExcept (s.read m.name m.text)
    put (r.server.set s v)
  | .storage => do put (← takeStorage m r.server)
  | .serverKey .publicKey => do
    let key ← readKey m.text
    put { r.server with publicKey := some key }
  | .serverKey .privateKey => do
    let key ← readKey m.text
    put { r.server with privateKey := some key }
  | .device (.text .device) => put { r.server with device := some m.text }
  | .setting (.mark .force) => put { r.server with force := true }
  | .setting (.switch .lockEditSettings) => do
    let b ← Reading.ofExcept (Switch.lockEditSettings.read m.name m.text)
    return r.set (.switch .lockEditSettings) b
  | .setting (.text .newName) => return r.set (.text .newName) m.text
  | .setting (.text .file) => return r.set (.text .file) m.text
  | .setting (.mark .json) => return r.mark .json
  | .setting (.mark .fullInfo) => return r.mark .fullInfo
  | .requirePassword => do
    let (name, rule) ← Reading.ofExcept
      (PasswordRules.read PasswordRules.serverCommands m.name m.text)
    return { r with passwordRules := r.passwordRules.insert name rule }
  | .licenseKey => return { r with key := some m.text }
  | .company => return { r with company := some m.text }
  | .batch => return { r with batch := true }
  | _ =>
    match takeEntry? m r.server with
    | some server => do put (← Reading.ofExcept server)
    | none => refuseOption m

/-- How the options of the server are taken. -/
def grammar : Grammar Record := recordGrammar refuseArgument takeOption

end Server

/-- Reads a line about the server, the options starting at `start`. -/
def readServerLine (action : Action) (table : CommandTable) (start : Nat) (args : List String) :
    Reading Record := do
  let record ← Server.grammar.read (Record.ofAction action) (table.read args start)
  Reading.ofExcept (Rule.enforce record.server.rules)
  return record

end VmControl
