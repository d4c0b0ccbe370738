import VmControl.Secret
import VmControl.Value.LoginText

/-!
# Logins

The host that a command is to run on, and the passwords at hand for it.  A login text replaces the
host and adds its password, if it has one, to those that wait.
-/

namespace VmControl

/-- A host to log in to. -/
structure Login where
  /-- Who logs in. -/
  user : String
  /-- The host, empty for this one. -/
  server : String
  /-- The port, if it is not the usual one. -/
  port : Option Nat
  /-- The passwords that have not been used. -/
  pending : PendingSecrets
  deriving DecidableEq

namespace Login

/-- No login: the command runs on this host. -/
def empty : Login := ⟨"", "", none, ∅⟩

instance : EmptyCollection Login := ⟨empty⟩

/-- Adds a password. -/
def push (l : Login) (s : Secret) : Login := { l with pending := l.pending.push s }

/-- Takes the host of a login text, and adds its password. -/
def assign (l : Login) (t : LoginText) : Login :=
  let l := { l with user := t.user, server := t.server, port := t.port }
  match t.password with
  | some p => l.push ⟨p.text⟩
  | none => l

/-- Whether the command runs on another host. -/
def isRemote (l : Login) : Bool := l.server != ""

/-- The oldest password, which is thereby used up. -/
def takePassword (l : Login) : Option Secret × Login :=
  let (s, rest) := l.pending.take
  (s, { l with pending := rest })

/-- The question for a password, if one is needed and none waits. -/
def passwordPrompt? (l : Login) : Option String :=
  if l.isRemote && l.pending.isEmpty then some (l.user ++ "@" ++ l.server ++ "'s password: ")
  else none

/-- Asks for a password if one is needed, and tells whether it did. -/
def ensurePassword {ε : Type} (l : Login) (ask : String → Except ε Secret) :
    Except ε Bool × Login :=
  match l.passwordPrompt? with
  | none => (.ok false, l)
  | some prompt =>
    match ask prompt with
    | .ok s => (.ok true, l.push s)
    | .error e => (.error e, l)

end Login

end VmControl
