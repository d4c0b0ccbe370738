import VmControl.Console

/-!
# The programs

One executable is both programs: it controls the server if its name says so, and guests otherwise.
Files are read and paths resolved only where the line asks for it.  To find out, the line is read
again and again, each time with what is known of the host so far, until it asks for nothing new.
-/

namespace VmControl

/-- What is known of the host. -/
structure HostFacts where
  /-- The texts of files. -/
  files : List (String × Except String String)
  /-- The full paths of paths. -/
  paths : List (String × Except String String)

namespace HostFacts

/-- The host as far as it is known. -/
def host (k : HostFacts) : Host where
  readFile path := (k.files.lookup path).getD (.error "")
  fullPath path := (k.paths.lookup path).getD (.error "")

end HostFacts

/-- The reason of a failure in the words of the system. -/
def failureReason (e : IO.Error) : String :=
  let told (code : UInt32) (details : String) : String :=
    details ++ " (os error " ++ toString code.toNat ++ ")"
  match e with
  | .noFileOrDirectory _ code details => told code details
  | .permissionDenied _ code details => told code details
  | .inappropriateType _ code details => told code details
  | .invalidArgument _ code details => told code details
  | .resourceExhausted _ code details => told code details
  | .noSuchThing _ code details => told code details
  | .hardwareFault code details => told code details
  | .otherError code details => told code details
  | e => toString e

/-- Performs an action, and tells the reason of its failure. -/
def attempt {α : Type} (x : IO α) : IO (Except String α) := do
  try return .ok (← x) catch e => return .error (failureReason e)

/-- The text of a file. -/
def loadFile (path : String) : IO (Except String String) := do
  match ← attempt (IO.FS.readBinFile path) with
  | .error reason => return .error reason
  | .ok bytes =>
    match String.fromUTF8? bytes with
    | some text => return .ok text
    | none => return .error "stream did not contain valid UTF-8"

/-- The full path of a path. -/
def loadPath (path : String) : IO (Except String String) := do
  attempt (return (← IO.FS.realPath path).toString)

/-- Finds out what the line asks of the host, in at most `fuel` steps. -/
def gatherFacts (p : Program) (args : List String) : Nat → HostFacts → IO HostFacts
  | 0, known => return known
  | fuel + 1, known => do
    match ((p.read args).perform known.host .initial).1 with
    | .error (.unreadable path _) =>
      if (known.files.lookup path).isSome then return known
      else gatherFacts p args fuel { known with files := (path, ← loadFile path) :: known.files }
    | .error (.refused (.violation (.unresolvedPath path))) =>
      if (known.paths.lookup path).isSome then return known
      else gatherFacts p args fuel { known with paths := (path, ← loadPath path) :: known.paths }
    | _ => return known

/-- Asks for a password at the terminal. -/
def askPassword (prompt : String) : IO Secret := do
  let errors ← IO.getStderr
  errors.putStr prompt
  errors.flush
  let line ← (← IO.getStdin).getLine
  return ⟨String.ofList (Text.firstLine line.toList)⟩

/-- The record with a password for its host, if one is needed and somebody can be asked. -/
def withPassword (r : Record) : IO Record := do
  match r.login.passwordPrompt? with
  | none => return r
  | some prompt =>
    if ← (← IO.getStdin).isTty then
      return { r with login := r.login.push (← askPassword prompt) }
    else return r

/-- The program that an executable of this name is. -/
def Program.ofName (name : String) : Program :=
  if "prlsrvctl".toList.isPrefixOf name.toList then .server else .guests

end VmControl

open VmControl

def main (words : List String) : IO UInt32 := do
  let args := (← IO.appPath).toString :: words
  let program := Program.ofName (Usage.programName args)
  let facts ← gatherFacts program args (args.length + 1) ⟨[], []⟩
  let (result, effects) := program.route args facts.host .initial
  let result ← match result with
    | .ok r => if r.isValid then pure (.ok (← withPassword r)) else pure (.ok r)
    | .error status => pure (.error status)
  let transcript := Transcript.ofRoute result effects
  IO.eprint transcript.errors
  IO.print transcript.output
  return transcript.status.toInt32.toUInt32
