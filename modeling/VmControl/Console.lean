import VmControl.Program

/-!
# The programs at the console

How a program answers a line: it says why the line is turned down, or names what is to be done.
-/

namespace VmControl

/-! ## Turning down a line -/

/-- Whether the usage is told together with the error. -/
def CommandError.showsUsage : CommandError → Bool
  | .invalidUsage => true
  | .unknownAction _ => true
  | _ => false

namespace Program

/-- What is written for a line that is turned down. -/
def refusalNotes (p : Program) (args : List String) (e : CommandError) : List Note :=
  if e = .reported then []
  else if e.showsUsage then [.complaint e.message, .output (p.usage args)]
  else [.complaint e.message]

/-- Reads a line, and tells why it is turned down.  The answer is then `Record.invalid`; it is a
status where the line ends the program. -/
def route (p : Program) (args : List String) (host : Host) (start : Preferences) :
    Except Int Record × Effects :=
  match (p.read args).perform host start with
  | (.ok r, effects) => (.ok r, effects)
  | (.error (.exit status), effects) => (.error status, effects)
  | (.error e, effects) =>
    (.ok .invalid, (p.refusalNotes args e).foldl Effects.addNote effects)

end Program

/-! ## Accepting a line -/

namespace Record

/-- The host that the command runs on, unless it is this one. -/
def hostSummary (l : Login) (authenticated : Bool) : String :=
  if l.isRemote then
    let port := match l.port with
      | some port => ":" ++ toString port
      | none => ""
    " on " ++ l.user ++ "@" ++ l.server ++ port ++
      (if authenticated then " (password supplied)" else "")
  else ""

/-- Names what is to be done, and uses up a password for it. -/
def dispatch (r : Record) : String × Record :=
  let (password, login) := r.login.takePassword
  let target := match r.target with
    | some target => " " ++ target
    | none => ""
  (r.action.name ++ target ++ hostSummary login password.isSome, { r with login := login })

end Record

/-! ## Whole runs -/

/-- What a program shows, and the status that it ends with. -/
structure Transcript where
  /-- The status. -/
  status : Int
  /-- The standard output. -/
  output : String
  /-- The standard error output. -/
  errors : String
  deriving DecidableEq, Repr

/-- The status of a program that turned its line down. -/
def failureStatus : Int := 1

/-- The transcript of a line that was routed and, if it was accepted, carried out as the record
says. -/
def Transcript.ofRoute (result : Except Int Record) (effects : Effects) : Transcript :=
  match result with
  | .error status => ⟨status, effects.outputText, effects.errorText⟩
  | .ok r =>
    if r.isValid then ⟨0, effects.outputText ++ r.dispatch.1 ++ "\n", effects.errorText⟩
    else ⟨failureStatus, effects.outputText, effects.errorText⟩

/-- A run of a program that nobody can be asked a password in. -/
def Program.run (p : Program) (args : List String) (host : Host) : Transcript :=
  let (result, effects) := p.route args host .initial
  .ofRoute result effects

end VmControl
