import VmControl.Numeral
import VmControl.Text.Cut

/-!
# Identifiers and addresses

Hardware addresses, UUIDs, IP addresses and `host:port` pairs.
-/

namespace VmControl

open Numeral Text

/-- Whether `c` is a hexadecimal digit. -/
def isHexDigit (c : Char) : Bool :=
  c.isDigit || ('a' ≤ c && c ≤ 'f') || ('A' ≤ c && c ≤ 'F')

/-! ## Hardware addresses -/

/-- The digits of a text of digit pairs, of which each may be followed by a colon. -/
def hexPairs : List Char → Option (List Char)
  | [] => some []
  | a :: b :: ':' :: rest =>
    if isHexDigit a && isHexDigit b then (hexPairs rest).map fun ds => a :: b :: ds else none
  | a :: b :: rest =>
    if isHexDigit a && isHexDigit b then (hexPairs rest).map fun ds => a :: b :: ds else none
  | [_] => none

/-- Reads `auto` or six octets, and answers the twelve digits with their case. -/
def readMac (s : String) : Option String :=
  if s = "auto" then some "auto"
  else (hexPairs s.toList).bind fun ds => if ds.length = 12 then some (String.ofList ds) else none

/-! ## UUIDs -/

/-- Whether the text is a UUID without braces: groups of 8, 4, 4, 4 and 12 hexadecimal digits,
joined by dashes. -/
def isPlainUuid (cs : List Char) : Bool :=
  cs.length == 36 && cs.zipIdx.all fun (c, i) =>
    if i = 8 ∨ i = 13 ∨ i = 18 ∨ i = 23 then c == '-' else isHexDigit c

/-- The text between enclosing braces, or the text itself if it has none. -/
def withoutBraces (cs : List Char) : List Char :=
  match cs with
  | '\x7b' :: rest => if rest.getLast? = some '\x7d' then rest.dropLast else cs
  | _ => cs

/-- Whether the text is a UUID, with or without braces. -/
def isUuid (s : String) : Bool := isPlainUuid (withoutBraces s.toList)

/-- The UUID in braces. -/
def normalizeUuid (s : String) : Option String :=
  if isUuid s then
    some (String.ofList ('\x7b' :: withoutBraces s.toList ++ ['\x7d']))
  else none

/-- A UUID in braces; a text that is none stays as it is. -/
def uuidOrVerbatim (s : String) : String := (normalizeUuid s).getD s

/-! ## IP addresses -/

/-- The groups of one side of `::`. -/
def ipGroups (cs : List Char) : List (List Char) :=
  if cs = [] then [] else fields ':' cs

/-- Whether two colons stand next to each other. -/
def hasDoubleColon (cs : List Char) : Bool := (cutPair ':' ':' cs).isSome

/-- An address with a colon in upper case and with the zero groups that `::` stands for written
out.  An address that is not well formed is put in upper case only, and one without a colon is
left alone. -/
def normalizeIp (s : String) : String :=
  if ':' ∉ s.toList then s
  else
    let upper := s.toList.map Char.toUpper
    match cutPair ':' ':' upper with
    | none => String.ofList upper
    | some (head, tail) =>
      let front := ipGroups head
      let back := ipGroups tail
      if hasDoubleColon tail || 8 ≤ front.length + back.length then String.ofList upper
      else
        let zeros := List.replicate (8 - front.length - back.length) ['0']
        String.ofList ([':'].intercalate (front ++ zeros ++ back))

/-! ## Host and port -/

/-- Reads a port number. -/
def readPort (cs : List Char) : Option Nat := unsigned word16 cs

/-- Whether the text is `HOST:PORT`, the host being in brackets if it starts with one. -/
def isHostPort (s : String) : Bool :=
  let parts := match s.toList with
    | '[' :: inner => cutPair ']' ':' inner
    | cs => cutLast ':' cs
  match parts with
  | some (host, port) => host != [] && (readPort port).isSome
  | none => false

end VmControl
