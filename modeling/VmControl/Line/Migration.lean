import VmControl.Line.Basic

/-!
# Migration lines

`[LOGIN/]SOURCE LOGIN[/NAME] [OPTIONS]`: the guest with the host that it is on, and the host that it
goes to with the name that it gets there.
-/

namespace VmControl

open Options Text

namespace Migration

/-- Takes an option of migrations. -/
def takeOption (m : Match OptionId) (r : Record) : Reading Record :=
  let put (migration : Migration) : Reading Record := return { r with migration := migration }
  let migration := r.migration
  match m.id with
  | .setting (.mark .force) => put { migration with force := true }
  | .securityLevel => do
    let level ← readSecurityLevel m
    put { migration with securityLevel := some level }
  | .setting (.text .location) => do
    let location ← Reading.ofExcept (readLocation m.name m.text)
    put { migration with location := some location }
  | .session => put { migration with session := some m.text }
  | .cloneMode => put { migration with clone := true }
  | .removeSource => put { migration with removeSource := true }
  | .switchTemplate => put { migration with switchTemplate := true }
  | .setting (.mark .changeSystemId) => put { migration with changeSystemId := true }
  | .ignoreExisting => put { migration with ignoreExisting := true }
  | .shellOptions =>
    put { migration with shellOptions := (words (· == ' ') m.text.toList).map String.ofList }
  | .uncompressed => put { migration with uncompressed := true }
  | .noTunnel => put { migration with noTunnel := true }
  | _ => refuseOption m

/-- How the options of migrations are taken. -/
def grammar : Grammar Record := recordGrammar refuseArgument takeOption

end Migration

/-- Reads a migration line, the source being the argument at `offset`. -/
def readMigrationLine (action : Action) (table : CommandTable) (offset : Nat)
    (args : List String) : Reading Record := do
  match args[offset]?, args[offset + 1]? with
  | some source, some destination =>
    let (login, target) ← readTarget offset "src" source
    let (server, name) := match cutSlash destination with
      | some (server, name) => (server, some name)
      | none => (destination, none)
    let host ← readPositionalLogin (offset + 1) "dst" server
    let start := Record.ofAction action
    let record := { start with
      target := some target
      login := start.login.assignTarget login
      migration := { start.migration with
        newName := name
        destination := start.migration.destination.assign host } }
    let record ← Migration.grammar.read record (table.read args (offset + 2))
    Reading.ofExcept (Rule.enforce record.migration.rules)
    return record
  | _, _ => throw (.refused .migrateUsage)

end VmControl
