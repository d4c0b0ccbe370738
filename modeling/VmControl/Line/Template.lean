import VmControl.Line.Basic

/-!
# Lines about container templates

Listing, removing and copying templates, and the line that watches the server.
-/

namespace VmControl

open Options

namespace TemplateCopy

/-- Takes an option of copies. -/
def takeOption (m : Match OptionId) (r : Record) : Reading Record :=
  match m.id with
  | .setting (.mark .force) =>
    return { r with templateCopy := { r.templateCopy with force := true } }
  | .securityLevel => do
    let level ← readSecurityLevel m
    return { r with templateCopy := { r.templateCopy with securityLevel := some level } }
  | _ => refuseOption m

/-- How the options of copies are taken. -/
def grammar : Grammar Record := recordGrammar refuseArgument takeOption

/-- The system template, if the words start with one, and how many words that takes. -/
def systemTemplate : List String → Option String × Nat
  | word :: _ => if word.toList.head? = some '-' then (none, 0) else (some word, 1)
  | [] => (none, 0)

end TemplateCopy

/-- Reads the line for a copy, the other host being the argument at `position`. -/
def readTemplateCopyLine (table : CommandTable) (position : Nat) (args : List String) :
    Reading Record := do
  match args.drop position with
  | host :: name :: rest =>
    let login ← readPositionalLogin position "dst" host
    let (osName, words) := TemplateCopy.systemTemplate rest
    let start := Record.ofAction .serverTemplateCopy
    let record := { start with
      template := { start.template with name := some name, osName := osName }
      templateCopy := { start.templateCopy with
        destination := start.templateCopy.destination.assign login } }
    TemplateCopy.grammar.read record (table.read args (position + 2 + words))
  | _ => throw .invalidUsage

/-- Reads a line about templates, the word at `position` saying what is to be done.  The table is
that of copies; nothing else has options. -/
def readTemplateLine (table : CommandTable) (position : Nat) (args : List String) :
    Reading Record :=
  let record := Record.ofAction .serverTemplate
  match args.drop position with
  | "list" :: rest =>
    let json := rest.head? == some "-j" || rest.head? == some "--json"
    return if json then record.mark .json else record
  | "remove" :: name :: rest =>
    return { record with template := ⟨.remove, some name, rest.head?⟩ }
  | "remove" :: [] => throw .invalidUsage
  | "copy" :: _ => readTemplateCopyLine table (position + 1) args
  | command :: _ => throw (.refused (.templateCommand command))
  | [] => throw .invalidUsage

/-- Reads the line that watches the server, which has two words. -/
def readMonitorLine (args : List String) : Reading Record :=
  if args.length = 2 then return Record.ofAction .serverMonitor else throw .invalidUsage

end VmControl
