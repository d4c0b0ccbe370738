import VmControl.Value.Address

/-!
# Logins as they are written

A login is `[USER[:PASSWORD]@]SERVER[:PORT]`.  The server may stand in brackets, which an address
with colons needs if a port follows it.  The password is told together with the bytes of the text
that hold it, so that they can be wiped.
-/

namespace VmControl

open Text

/-- A password within a login text. -/
structure WrittenPassword where
  /-- The password. -/
  text : String
  /-- The offset of its first byte. -/
  start : Nat
  /-- The offset after its last byte. -/
  stop : Nat
  deriving DecidableEq, Repr

/-- The parts of a login text. -/
structure LoginText where
  /-- Who logs in. -/
  user : String
  /-- The password, if the text has one. -/
  password : Option WrittenPassword
  /-- The host to log in to. -/
  server : String
  /-- The port, if the text names one. -/
  port : Option Nat
  deriving DecidableEq, Repr

namespace LoginText

/-- The user of a login text that names none. -/
def defaultUser : String := "root"

/-- Takes `SERVER[:PORT]` apart.  A text with two colons or more and no brackets is a server as a
whole. -/
def splitHost (host : List Char) : Option (List Char × Option (List Char)) :=
  match host with
  | '[' :: inner =>
    match cutLast ']' inner with
    | some (server, []) => some (server, none)
    | some (server, ':' :: port) => some (server, some port)
    | _ => none
  | _ =>
    if 1 < host.count ':' then some (host, none)
    else
      match cutFirst ':' host with
      | some (server, port) => some (server, some port)
      | none => some (host, none)

/-- Reads `SERVER[:PORT]`.  The server has at least two bytes. -/
def readHost (host : List Char) : Option (List Char × Option Nat) :=
  (splitHost host).bind fun (server, port) =>
    let port := match port with
      | none => some none
      | some p => (readPort p).map some
    port.bind fun p => if byteLength server ≤ 1 then none else some (server, p)

/-- Reads `USER[:PASSWORD]`.  The password follows the last colon, and the user is not empty. -/
def readUser (part : List Char) : Option (List Char × Option WrittenPassword) :=
  let (user, password) := match cutLast ':' part with
    | some (user, p) =>
      (user, some ⟨String.ofList p, byteLength user + 1, byteLength part⟩)
    | none => (part, none)
  if user = [] then none else some (user, password)

/-- Reads a login text.  What precedes the last `@` is the user. -/
def read (s : String) : Option LoginText :=
  match cutLast '@' s.toList with
  | some (part, host) =>
    (readHost host).bind fun (server, port) => (readUser part).map fun (user, password) =>
      ⟨String.ofList user, password, String.ofList server, port⟩
  | none =>
    (readHost s.toList).map fun (server, port) => ⟨defaultUser, none, String.ofList server, port⟩

end LoginText

end VmControl
