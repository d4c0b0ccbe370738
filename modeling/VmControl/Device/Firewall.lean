import VmControl.Error
import VmControl.Value.Address

/-!
# Firewall rules

A rule is five words between blanks: the protocol, and address and port of the source and of the
destination.  An asterisk stands for any.  A rule for a port has a protocol.
-/

namespace VmControl

open Text

/-- What happens to packets that no rule is about. -/
inductive FirewallPolicy where
  | accept
  | deny
  deriving DecidableEq, Repr

/-- Reads the policy. -/
def FirewallPolicy.read? : String → Option FirewallPolicy
  | "accept" => some .accept
  | "deny" => some .deny
  | _ => none

/-- The way of the packets that a policy or a rule is about. -/
inductive FirewallDirection where
  | incoming
  | outgoing
  deriving DecidableEq, Repr

/-- Reads the direction. -/
def FirewallDirection.read? : String → Option FirewallDirection
  | "in" => some .incoming
  | "out" => some .outgoing
  | _ => none

/-- A transport protocol. -/
inductive Transport where
  | tcp
  | udp
  deriving DecidableEq, Repr

/-- One firewall rule, `none` standing for any. -/
structure FirewallRule where
  /-- The protocol. -/
  protocol : Option Transport
  /-- The address that packets come from. -/
  sourceIp : Option String
  /-- The port that they come from. -/
  sourcePort : Option Nat
  /-- The address that they go to. -/
  targetIp : Option String
  /-- The port that they go to. -/
  targetPort : Option Nat
  deriving DecidableEq, Repr

namespace FirewallRule

/-- Reads a word that may be an asterisk. -/
def readAny {α : Type} (read : List Char → Option α) (word : List Char) : Option (Option α) :=
  if word = ['*'] then some none else (read word).map some

/-- Reads the word for a protocol. -/
def readTransport (word : List Char) : Option Transport :=
  if word = "tcp".toList then some .tcp
  else if word = "udp".toList then some .udp
  else none

/-- Reads five words as a rule. -/
def ofWords : List (List Char) → Option FirewallRule
  | [protocol, sourceIp, sourcePort, targetIp, targetPort] => do
    let protocol ← readAny readTransport protocol
    let sourceIp ← readAny (fun w => some (String.ofList w)) sourceIp
    let sourcePort ← readAny readPort sourcePort
    let targetIp ← readAny (fun w => some (String.ofList w)) targetIp
    let targetPort ← readAny readPort targetPort
    return ⟨protocol, sourceIp, sourcePort, targetIp, targetPort⟩
  | _ => none

/-- Whether the rule names a port. -/
def hasPort (r : FirewallRule) : Bool := r.sourcePort.isSome || r.targetPort.isSome

/-- Reads a rule. -/
def read (s : String) : Except CommandError FirewallRule :=
  match ofWords (blankWords s.toList) with
  | none => .error (.refused (.firewallRule s))
  | some r =>
    if r.protocol.isNone && r.hasPort then .error (.refused .portWithoutProtocol) else .ok r

end FirewallRule

end VmControl
