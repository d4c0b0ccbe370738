import VmControl.Error
import VmControl.Numeral
import VmControl.Text.Cut
import VmControl.Value.Toggle

/-!
# Expiration

When a guest stops to be usable.  One option sets one part at a time: it switches the expiration
on or off, or is `KEY:VALUE` for the part that the key names.
-/

namespace VmControl

open Numeral Text

/-- The parts of an expiration that were given. -/
structure Expiration where
  /-- Whether the guest expires. -/
  enabled : Option Bool
  /-- When it does. -/
  date : Option String
  /-- The server that tells the time. -/
  timeServer : Option String
  /-- The seconds between two questions for the time. -/
  timeCheck : Option Int
  /-- The seconds that the guest runs on without an answer. -/
  offlineTime : Option Int
  /-- What the user is told. -/
  note : Option String
  deriving DecidableEq, Repr

namespace Expiration

/-- No part was given. -/
def empty : Expiration := ⟨none, none, none, none, none, none⟩

/-- The text before and after the byte at `n`, if a character starts there or the text ends. -/
def splitAtByte : Nat → List Char → Option (List Char × List Char)
  | 0, cs => some ([], cs)
  | _ + 1, [] => none
  | n + 1, c :: cs =>
    if c.utf8Size ≤ n + 1 then
      (splitAtByte (n + 1 - c.utf8Size) cs).map fun (before, after) => (c :: before, after)
    else none
termination_by _ cs => cs.length

/-- A date with its time behind a space: the letter between the two, the byte at 10, is replaced
if it is one byte long. -/
def normalizeDate (cs : List Char) : List Char :=
  match splitAtByte 10 cs with
  | some (day, c :: time) => if c.utf8Size = 1 then day ++ ' ' :: time else cs
  | _ => cs

/-- Reads a number of seconds. -/
def readSeconds (cs : List Char) : Option Int := signed (word64 / 2) cs

/-- Sets the part that `key` names. -/
def setPart (e : Expiration) (key value : List Char) : Option Expiration :=
  match String.ofList key with
  | "date" => some { e with date := some (String.ofList (normalizeDate value)) }
  | "time-check" => (readSeconds value).map fun n => { e with timeCheck := some n }
  | "offline-time" => (readSeconds value).map fun n => { e with offlineTime := some n }
  | "time-server" => some { e with timeServer := some (String.ofList value) }
  | "note" => some { e with note := some (String.ofList value) }
  | _ => none

/-- Takes one value of the option. -/
def apply (e : Expiration) (s : String) : Except CommandError Expiration :=
  match Toggle.read s with
  | some b => .ok { e with enabled := some b }
  | none =>
    let next := match firstWord (· == ':') s.toList with
      | [key, value] => e.setPart key value
      | _ => none
    match next with
    | some e => .ok e
    | none => .error (.badValue "--expiration" s)

end Expiration

end VmControl
