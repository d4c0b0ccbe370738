import VmControl.Consistency
import VmControl.Options.Tables

/-!
# Reading lines of options

What all command lines have in common: the options that every command knows, the walk over the
options and arguments of a line, and logins that stand in front of a name.
-/

namespace VmControl

open Numeral Options Text

/-! ## Options of every command -/

/-- Reads a login and wipes it.  It is wiped even if it is not well formed. -/
def readLogin (m : Match OptionId) : Reading LoginText := do
  Reading.wipe m.slot?
  match LoginText.read m.text with
  | some login => return login
  | none => throw (.badSecret m.name)

/-- The password in a file, which is its first line. -/
def readPasswordFile (path : String) : Reading Secret := do
  let text ← Reading.readFile path
  return ⟨String.ofList (firstLine text.toList)⟩

/-- What an option of every command does to the login, and nothing for any other option. -/
def readCommonOption (m : Match OptionId) : Reading (Option (Login → Login)) := do
  match m.id with
  | .login =>
    let login ← readLogin m
    return some (·.assign login)
  | .readPassword =>
    let password ← readPasswordFile m.text
    return some (·.push password)
  | .verbose =>
    Reading.prefer fun p => { p with verbosity := leading m.text.toList }
    return some id
  | .compat =>
    Reading.prefer fun p => { p with compat := true }
    return some id
  | .timeout =>
    Reading.prefer fun p => { p with timeout := some (leading m.text.toList).toNat }
    return some id
  | _ => return none

/-! ## The walk over a line -/

/-- How a command takes what stands on its line. -/
structure Grammar (α : Type) where
  /-- Changes the login. -/
  mapLogin : (Login → Login) → α → α
  /-- Takes an argument that is no option, and its position. -/
  argument : Nat → String → α → Reading α
  /-- Takes an option that is not one of every command. -/
  option : Match OptionId → α → Reading α

namespace Grammar

variable {α : Type}

/-- Takes one option or argument. -/
def step (g : Grammar α) (a : α) (e : Event OptionId) : Reading α :=
  match e with
  | .unknown index token => g.argument index token a
  | .option m => do
    Reading.enter m
    match ← readCommonOption m with
    | some f => return g.mapLogin f a
    | none => g.option m a

/-- Takes options and arguments in order. -/
def steps (g : Grammar α) (a : α) (events : List (Event OptionId)) : Reading α :=
  events.foldlM g.step a

/-- What holds of taking nothing and of each step, and stays when readings follow each other, holds
of taking all that is there. -/
theorem steps_induction {g : Grammar α} {P : Reading α → Prop} (hpure : ∀ a, P (pure a))
    (hbind : ∀ (x : Reading α) (f : α → Reading α), P x → (∀ a, P (f a)) → P (x >>= f))
    {events : List (Event OptionId)} (hstep : ∀ event ∈ events, ∀ a, P (g.step a event)) (a : α) :
    P (g.steps a events) := by
  induction events generalizing a with
  | nil => exact hpure a
  | cons event events ih =>
    have ih := ih fun event hevent => hstep event (List.mem_cons_of_mem _ hevent)
    unfold steps at ih ⊢
    rw [List.foldlM_cons]
    exact hbind _ _ (hstep event (List.mem_cons_self ..) a) ih

/-- Takes a line to its end. -/
def read (g : Grammar α) (a : α) (s : Stream OptionId) : Reading α := do
  let a ← g.steps a s.events
  match s.missing with
  | none => return a
  | some missing => throw (.missingValue missing.name)

end Grammar

/-- An argument that the command does not take. -/
def refuseArgument {α : Type} (_ : Nat) (token : String) (_ : α) : Reading α :=
  throw (.unrecognized token)

/-- An option that the command does not have. -/
def refuseOption {α : Type} (m : Match OptionId) : Reading α := throw (.unrecognized m.name)

/-- A grammar for records. -/
def recordGrammar (argument : Nat → String → Record → Reading Record)
    (option : Match OptionId → Record → Reading Record) : Grammar Record where
  mapLogin f r := { r with login := f r.login }
  argument := argument
  option := option

/-- How far the network is trusted, by the text of an option. -/
def readSecurityLevel (m : Match OptionId) : Reading SecurityLevel :=
  match SecurityLevel.read? m.text with
  | some level => return level
  | none => throw (.refused (.securityLevel m.text))

/-- A credential, which is wiped from the line. -/
def readSecret (m : Match OptionId) : Reading Secret := do
  Reading.wipe m.slot?
  return ⟨m.text⟩

/-! ## Logins in front of names -/

/-- Reads a login that is the start of the argument at `index`, and wipes its password.  `role` is
the part that it plays, for the error. -/
def readPositionalLogin (index : Nat) (role text : String) : Reading LoginText := do
  match LoginText.read text with
  | none => throw (.badSecret role)
  | some login =>
    Reading.enterLogin ⟨index, role, text⟩
    Reading.wipe (login.password.map fun p => ⟨index, p.start, p.stop⟩)
    return login

/-- The texts before and after the first slash. -/
def cutSlash (s : String) : Option (String × String) :=
  (cutFirst '/' s.toList).map fun (before, after) => (String.ofList before, String.ofList after)

/-- Reads `[LOGIN/]NAME` in the argument at `index`, and answers the login, if there is one, and
the name. -/
def readTarget (index : Nat) (role token : String) : Reading (Option LoginText × String) := do
  match cutSlash token with
  | some (login, name) => return (some (← readPositionalLogin index role login), name)
  | none => return (none, token)

/-- The login with that of a target taken, if it has one. -/
def Login.assignTarget (l : Login) : Option LoginText → Login
  | some text => l.assign text
  | none => l

end VmControl
