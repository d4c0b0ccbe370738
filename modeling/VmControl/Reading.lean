import VmControl.Error
import VmControl.Options.Cursor
import VmControl.Options.Id

/-!
# Reading a command line

What reading a command line may ask of the host, and what it leaves behind besides its result:
the preferences that it changes, the options and logins that it came to, the bytes of the argument
vector that are to be wiped, and what is written to the user.  All that is kept when the line is
turned down half way.

## Main statements

* `Reading.after_bind`: a reading that continues another starts from what that one left behind,
  and a failure keeps what was done before it.
-/

namespace VmControl

open Options

/-- What a command line may ask of the host that it is read on.  A failure comes with its reason. -/
structure Host where
  /-- The text of a file. -/
  readFile : String → Except String String
  /-- The full path that a path stands for. -/
  fullPath : String → Except String String

/-! ## Preferences -/

/-- How much is logged. -/
inductive LogLevel where
  | error
  | warn
  | info
  | debug
  | trace
  deriving DecidableEq, Repr

/-- What a command line sets for itself and those after it. -/
structure Preferences where
  /-- How much is logged: nothing but errors if negative, and more the larger it is. -/
  verbosity : Int
  /-- Whether output is written in the old form. -/
  compat : Bool
  /-- The seconds that a job may take. -/
  timeout : Option Nat
  deriving DecidableEq, Repr

namespace Preferences

/-- The preferences before the first line. -/
def initial : Preferences := ⟨0, false, none⟩

/-- The level that the verbosity stands for. -/
def logLevel (p : Preferences) : LogLevel :=
  if p.verbosity < 0 then .error
  else if p.verbosity = 0 then .warn
  else if p.verbosity = 1 then .info
  else if p.verbosity = 2 then .debug
  else .trace

end Preferences

/-! ## Notes -/

/-- Something written to the user. -/
inductive Note where
  /-- Text for the standard output. -/
  | output (text : String)
  /-- A line for the standard error output. -/
  | complaint (line : String)
  /-- A warning for the log, with the part of the program that it comes from. -/
  | warning (origin text : String)
  deriving DecidableEq, Repr

namespace Note

/-- What the note adds to the standard output. -/
def outputText : Note → String
  | .output text => text
  | _ => ""

/-- What the note adds to the standard error output, apart from the log. -/
def complaintText : Note → String
  | .complaint line => line ++ "\n"
  | _ => ""

/-- What the note adds to the standard error output if the log goes there too. -/
def errorText : Note → String
  | .warning origin text => "[WARN  " ++ origin ++ "] " ++ text ++ "\n"
  | note => note.complaintText

end Note

/-! ## Readings -/

/-- A login that is the start of an argument. -/
structure PlacedLogin where
  /-- The position of the argument. -/
  index : Nat
  /-- The part that the login plays. -/
  role : String
  /-- The login as it is written. -/
  text : String
  deriving DecidableEq, Repr

/-- What a reading has done so far. -/
structure Effects where
  /-- The preferences. -/
  preferences : Preferences
  /-- The options that were read, in order.  The last one may be what turned the line down. -/
  options : List (Match OptionId)
  /-- The well-formed logins in front of names that were read, in order. -/
  logins : List PlacedLogin
  /-- The credentials to be wiped, in the order in which they were found. -/
  wiped : List Slot
  /-- What was written, in order. -/
  notes : List Note
  deriving DecidableEq

namespace Effects

/-- Nothing was done. -/
def start (p : Preferences) : Effects := ⟨p, [], [], [], []⟩

/-- What was written to the standard output. -/
def outputText (e : Effects) : String := String.join (e.notes.map Note.outputText)

/-- What was written to the standard error output, apart from the log. -/
def complaintText (e : Effects) : String := String.join (e.notes.map Note.complaintText)

/-- What was written to the standard error output together with the log. -/
def errorText (e : Effects) : String := String.join (e.notes.map Note.errorText)

/-- The effects with one more text written. -/
def addNote (e : Effects) (n : Note) : Effects := { e with notes := e.notes ++ [n] }

end Effects

/-- A computation that reads a command line or a part of it.  Its effects stay when it fails. -/
abbrev Reading (α : Type) := ReaderT Host (ExceptT CommandError (StateM Effects)) α

namespace Reading

variable {α β : Type}

/-- What a reading comes to on a host, and what has been done when it ends. -/
def after (x : Reading α) (host : Host) (e : Effects) : Except CommandError α × Effects :=
  ((x.run host).run).run e

/-- Performs a reading with the preferences at hand. -/
def perform (x : Reading α) (host : Host) (p : Preferences) :
    Except CommandError α × Effects :=
  x.after host (.start p)

/-- A result that needs no effect. -/
def ofExcept (x : Except CommandError α) : Reading α :=
  match x with
  | .ok a => pure a
  | .error e => throw e

/-- Notes that an option was read. -/
def enter (m : Match OptionId) : Reading Unit :=
  modify fun e => { e with options := e.options ++ [m] }

/-- Notes that a login in front of a name was read. -/
def enterLogin (l : PlacedLogin) : Reading Unit :=
  modify fun e => { e with logins := e.logins ++ [l] }

/-- Wipes the credential in a slot. -/
def wipe (s : Option Slot) : Reading Unit :=
  match s with
  | some s => modify fun e => { e with wiped := e.wiped ++ [s] }
  | none => pure ()

/-- Writes to the user. -/
def write (n : Note) : Reading Unit := modify (·.addNote n)

/-- Logs a warning, unless the preferences ask for errors alone. -/
def warn (origin text : String) : Reading Unit := do
  if 0 ≤ (← get).preferences.verbosity then write (.warning origin text)

/-- Changes the preferences. -/
def prefer (f : Preferences → Preferences) : Reading Unit :=
  modify fun e => { e with preferences := f e.preferences }

/-- The text of a file of the host. -/
def readFile (path : String) : Reading String := do
  match (← read).readFile path with
  | .ok text => pure text
  | .error reason => throw (.unreadable path reason)

/-- Nothing follows a failure. -/
@[simp] theorem throw_bind (u : CommandError) (f : α → Reading β) :
    (throw u : Reading α) >>= f = throw u :=
  rfl

@[simp] theorem map_throw (u : CommandError) (f : α → β) :
    f <$> (throw u : Reading α) = throw u :=
  rfl

/-! ### What readings come to -/

section After

variable (host : Host) (e : Effects)

@[simp] theorem after_pure (a : α) : (pure a : Reading α).after host e = (.ok a, e) := rfl

@[simp] theorem after_throw (u : CommandError) :
    (throw u : Reading α).after host e = (.error u, e) := rfl

/-- **A reading continues from what was left behind, and a failure ends it.** -/
@[simp] theorem after_bind (x : Reading α) (f : α → Reading β) :
    (x >>= f).after host e =
      match x.after host e with
      | (.ok a, e) => (f a).after host e
      | (.error u, e) => (.error u, e) := by
  simp only [after, ReaderT.run_bind, ExceptT.run_bind, StateT.run_bind]
  rcases ((x.run host).run).run e with ⟨_ | _, _⟩ <;> rfl

@[simp] theorem after_map (x : Reading α) (f : α → β) :
    (f <$> x).after host e = ((x.after host e).1.map f, (x.after host e).2) := by
  rw [map_eq_pure_bind, after_bind]
  rcases h : x.after host e with ⟨_ | _, _⟩ <;> rfl

@[simp] theorem after_ofExcept (x : Except CommandError α) :
    (ofExcept x).after host e = (x, e) := by
  cases x <;> rfl

@[simp] theorem after_read : (read : Reading Host).after host e = (.ok host, e) := rfl

@[simp] theorem after_get : (get : Reading Effects).after host e = (.ok e, e) := rfl

@[simp] theorem after_enter (m : Match OptionId) :
    (enter m).after host e = (.ok (), { e with options := e.options ++ [m] }) := rfl

@[simp] theorem after_enterLogin (l : PlacedLogin) :
    (enterLogin l).after host e = (.ok (), { e with logins := e.logins ++ [l] }) := rfl

@[simp] theorem after_wipe (s : Option Slot) :
    (wipe s).after host e = (.ok (), { e with wiped := e.wiped ++ s.toList }) := by
  cases s with
  | none => simp [wipe]
  | some s => rfl

@[simp] theorem after_write (n : Note) : (write n).after host e = (.ok (), e.addNote n) := rfl

@[simp] theorem after_prefer (f : Preferences → Preferences) :
    (prefer f).after host e = (.ok (), { e with preferences := f e.preferences }) := rfl

@[simp] theorem after_readFile (path : String) :
    (readFile path).after host e =
      ((host.readFile path).mapError fun reason => .unreadable path reason, e) := by
  simp only [readFile, after_bind, after_read]
  cases host.readFile path <;> rfl

@[simp] theorem after_warn (origin text : String) :
    (warn origin text).after host e =
      (.ok (), if 0 ≤ e.preferences.verbosity then e.addNote (.warning origin text) else e) := by
  simp only [warn, after_bind, after_get]
  split <;> rfl

end After

end Reading

end VmControl
