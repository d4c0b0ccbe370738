import VmControl.Program
import VmControl.Proofs.Safety.Line

/-!
# Reading ends, and nothing goes wrong

A program looks at the words of its line, and reads the line of the command that they name.  By
position, that is: it looks up the first word after it has counted the arguments, and everything
that a command, an option or a value needs is looked up, cut, counted and shifted as the modules
before say.

## Main definitions

* `Guarded.readProgram`: what a program does, by position.

## Main statements

* `Program.read_never_traps`: it ends with a record or an error on every line and every host, and
  never traps.
-/

namespace VmControl

namespace Guarded

/-! ## Words -/

/-- What the line asks to be told.  A line without words is turned down. -/
def help? (p : Program) (args : List String) : Guarded (Option (String × CommandError)) := do
  if args.length < 2 then return some (p.usage args, .reported)
  let verb ← check (Checked.item args 1)
  match p with
  | .guests =>
    if verb = "--version" then
      return some (Usage.version (Usage.programName args) ++ "\n", .exit 0)
    else if "--help" ∈ args then return some (p.usage args, .exit 0)
    else return none
  | .server =>
    if verb = "help" ∨ verb = "--help" then return some (p.usage args, .exit 0) else return none

theorem help?_eq (p : Program) (args : List String) : help? p args = pure (p.help? args) := by
  unfold help? Program.help?
  rcases args with _ | ⟨name, _ | ⟨verb, rest⟩⟩
  · cases p <;> rfl
  · cases p <;> rfl
  · have hlength : ¬ (name :: verb :: rest).length < 2 := by simp
    have hverb : (name :: verb :: rest)[1]? = some verb := rfl
    simp only [hlength, if_false, Checked.item_eq_ok hverb, check_ok, pure_bind]
    cases p <;> simp only [List.drop_succ_cons, List.drop_zero] <;> split_ifs <;> rfl

/-- The command that a word stands for, if it stands for one. -/
def named (word : String) : Option Command → Guarded Command
  | some command => return command
  | none => throw (.unknownAction word)

/-- The command that the words after the name of the program for guests stand for. -/
def guestCommand (args : List String) : Guarded Command := do
  let verb ← check (Checked.item args 1)
  if verb = "list" then return .line .guest .list CommandTable.list 1
  else if verb = "backup-list" then
    return .line .backupList .backupList CommandTable.backupList 1
  else if args.length < 3 then throw .invalidUsage
  else if verb = "server" then
    let word := args[2]?.getD ""
    named word (sharedCommand? word 3)
  else named verb (guestCommand? verb)

@[simp] theorem named_some (word : String) (command : Command) :
    named word (some command) = pure command := rfl

@[simp] theorem named_none (word : String) : named word none = throw (.unknownAction word) := rfl

theorem guestCommand_eq (name verb : String) (rest : List String) :
    guestCommand (name :: verb :: rest) = ofExcept (VmControl.guestCommand (verb :: rest)) := by
  have hverb : (name :: verb :: rest)[1]? = some verb := rfl
  simp only [guestCommand, Checked.item_eq_ok hverb, check_ok, pure_bind]
  by_cases hlist : verb = "list"
  · simp only [VmControl.guestCommand, hlist, if_true, ofExcept_ok]
  by_cases hbackups : verb = "backup-list"
  · simp only [VmControl.guestCommand, hbackups, if_true, String.reduceEq, if_false, ofExcept_ok]
  cases rest with
  | nil => simp [VmControl.guestCommand, hlist, hbackups]
  | cons word rest =>
    have hlength : ¬ (name :: verb :: word :: rest).length < 3 := by simp
    simp only [hlist, hbackups, hlength, if_false]
    by_cases hserver : verb = "server"
    · subst hserver
      cases hcommand : sharedCommand? word 3 <;> simp [VmControl.guestCommand, hcommand]
    · cases hcommand : guestCommand? verb <;> simp [VmControl.guestCommand, hcommand, hserver]

/-- The command that the words after the name of the program for the server stand for. -/
def serverCommand (args : List String) : Guarded Command := do
  let verb ← check (Checked.item args 1)
  if verb = "user" then ofExcept (userCommand (args[2]?.getD ""))
  else if verb = "monitor" then return .monitor
  else named verb (serverCommand? verb)

theorem serverCommand_eq (name verb : String) (rest : List String) :
    serverCommand (name :: verb :: rest) = ofExcept (VmControl.serverCommand (verb :: rest)) := by
  have hverb : (name :: verb :: rest)[1]? = some verb := rfl
  simp only [serverCommand, Checked.item_eq_ok hverb, check_ok, pure_bind]
  by_cases huser : verb = "user"
  · subst huser
    cases rest <;> rfl
  by_cases hmonitor : verb = "monitor"
  · simp only [VmControl.serverCommand, hmonitor, if_true, String.reduceEq, if_false, ofExcept_ok]
  · cases hcommand : serverCommand? verb <;>
      simp [VmControl.serverCommand, huser, hmonitor, hcommand]

/-! ## Lines -/

/-- Reads a line. -/
def readProgram (p : Program) (args : List String) : Guarded Record := do
  match ← help? p args with
  | some (text, ending) =>
    lift (Reading.write (.output text))
    throw ending
  | none =>
    let command ← match p with
      | .guests => guestCommand args
      | .server => serverCommand args
    readLine command args

theorem readProgram_eq (p : Program) (args : List String) :
    readProgram p args = lift (p.read args) := by
  simp only [readProgram, Program.read, help?_eq, pure_bind, readLine_eq]
  cases hhelp : p.help? args with
  | some parts => simp only [lift_bind, lift_throw]
  | none =>
    rcases args with _ | ⟨name, _ | ⟨verb, rest⟩⟩
    · cases p <;> cases hhelp
    · cases p <;> cases hhelp
    · cases p <;>
        simp only [guestCommand_eq, serverCommand_eq, Program.command, List.drop_succ_cons,
          List.drop_zero, lift_bind] <;> rfl

end Guarded

/-! ## The whole -/

/-- **Reading is total.**  On every line, with any characters, and on every host, a program ends
with a record or an error, and never traps: what it comes to by position is what it comes to.
Nothing is looked up where there is nothing, no text is cut inside a character or behind its end, no
number falls below zero or exceeds its word, nothing is divided by zero, and each loop ends within
as many rounds as there are bytes and arguments.  Neither does it trap to wipe the credentials that
were read from the bytes of an argument vector, whatever these are. -/
theorem Program.read_never_traps (p : Program) (args : List String) (host : Host)
    (preferences : Preferences) (bytes : ArgumentBytes) :
    ∃ outcome effects,
      (Guarded.readProgram p args).after host (.start preferences) = .ok (outcome, effects) ∧
      (p.read args).perform host preferences = (outcome, effects) ∧
      Checked.wipeAll bytes effects.wiped = .ok (bytes.wipeAll effects.wiped) := by
  refine ⟨((p.read args).perform host preferences).1, ((p.read args).perform host preferences).2,
    ?_, rfl, Checked.wipeAll_eq ..⟩
  rw [Guarded.readProgram_eq, Guarded.after_lift]
  rfl

end VmControl
