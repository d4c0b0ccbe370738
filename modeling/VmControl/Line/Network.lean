import VmControl.Line.Server

/-!
# Lines about networks and host devices

Families of commands: the word at `position` says what is to be done, and its options and arguments
follow.
-/

namespace VmControl

open Options

/-! ## Virtual networks -/

namespace VirtualNetwork

/-- Takes the name of the network, of which there is one. -/
def takeName (_ : Nat) (token : String) (r : Record) : Reading Record :=
  if r.network.name.isSome then throw (.unexpectedArgument token)
  else return { r with network := { r.network with name := some token } }

/-- Takes an option of virtual networks. -/
def takeOption (m : Match OptionId) (r : Record) : Reading Record :=
  let put (network : VirtualNetwork) : Reading Record := return { r with network := network }
  match m.id with
  | .networkName => throw (.refused .networkRename)
  | .network s => do
    let v ← Reading.ofExcept (s.read m.name m.text)
    put (r.network.set s v)
  | .natAdd protocol =>
    match NatRule.read? m.text with
    | some rule =>
      put (r.network.mapNat protocol fun nat => { nat with added := nat.added ++ [rule] })
    | none => throw (.badValue "--nat-<tcp|udp>-add" m.text)
  | .natDelete protocol =>
    if m.text = "" then throw (.badValue "--nat-<tcp|udp>-del" "rule name is empty")
    else put (r.network.mapNat protocol fun nat => { nat with removed := nat.removed ++ [m.text] })
  | .setting (.mark .json) => return r.mark .json
  | _ => refuseOption m

/-- How a line about a virtual network is taken. -/
def grammar : Grammar Record := recordGrammar takeName takeOption

/-- Reads what is to be done to a virtual network. -/
def readCommand? : String → Option NetworkCommand
  | "list" => some .list
  | "set" => some .set
  | "add" => some .add
  | "new" => some .add
  | "del" => some .delete
  | "info" => some .info
  | _ => none

/-- The change that one of three short forms stands for: a name and an interface make a network
bridged, an interface alone is taken out of its network, and a name alone changes nothing. -/
def shortForm? (verb : String) (rest : List String) : Option VirtualNetwork :=
  let start : VirtualNetwork := { empty with command := .set }
  match verb, rest with
  | "addif", name :: ifName :: _ =>
    some (({ start with name := some name }.set (.text .ifName) ifName).set .kind .bridged)
  | "delif", ifName :: _ => some ((start.set (.text .ifName) ifName).set .kind .hostOnly)
  | "change", name :: _ => some { start with name := some name }
  | _, _ => none

end VirtualNetwork

/-- Reads a line about a virtual network.  The short forms are complete as they stand, and nothing
after them is read. -/
def readVirtualNetworkLine (table : CommandTable) (position : Nat) (args : List String) :
    Reading Record := do
  let record := Record.ofAction .serverVirtualNetwork
  match args.drop position with
  | [] => throw .invalidUsage
  | verb :: rest =>
    match VirtualNetwork.readCommand? verb with
    | some command =>
      let record := { record with network := { record.network with command := command } }
      let record ← VirtualNetwork.grammar.read record (table.read args (position + 1))
      Reading.ofExcept (Rule.enforce record.network.rules)
      return record
    | none =>
      match VirtualNetwork.shortForm? verb rest with
      | some network => return { record with network := network }
      | none => throw .invalidUsage

/-! ## Private networks -/

namespace PrivateNetwork

/-- Takes the name of the network, of which there is one. -/
def takeName (_ : Nat) (token : String) (r : Record) : Reading Record :=
  if r.privateNetwork.name.isSome then throw (.unexpectedArgument token)
  else return { r with privateNetwork := { r.privateNetwork with name := some token } }

/-- Takes an option of private networks. -/
def takeOption (m : Match OptionId) (r : Record) : Reading Record :=
  let put (network : PrivateNetwork) : Reading Record :=
    return { r with privateNetwork := network }
  let network := r.privateNetwork
  match m.id with
  | .privateAdd => put { network with addresses := network.addresses ++ [keptAddress m.text] }
  | .privateDelete => put { network with removed := network.removed ++ [keptAddress m.text] }
  | .privateGlobal =>
    match Toggle.read m.text with
    | some b => put { network with isGlobal := some b }
    | none => throw (.refused (.invalidValue "--global" m.text))
  | .setting (.mark .json) => return r.mark .json
  | _ => refuseOption m

/-- How a line about a private network is taken. -/
def grammar : Grammar Record := recordGrammar takeName takeOption

/-- Reads what is to be done to a private network. -/
def readCommand? : String → Option PrivateCommand
  | "list" => some .list
  | "set" => some .set
  | "add" => some .add
  | "new" => some .add
  | "del" => some .delete
  | _ => none

end PrivateNetwork

/-- Reads a line about a private network. -/
def readPrivateNetworkLine (table : CommandTable) (position : Nat) (args : List String) :
    Reading Record := do
  match args[position]?.bind PrivateNetwork.readCommand? with
  | none => throw .invalidUsage
  | some command =>
    let record := Record.ofAction .serverPrivateNetwork
    let network := { record.privateNetwork with command := command }
    let record ← PrivateNetwork.grammar.read { record with privateNetwork := network }
      (table.read args (position + 1))
    Reading.ofExcept (Rule.enforce record.privateNetwork.rules)
    return record

/-! ## Host devices -/

namespace UsbAssignment

/-- Takes an option of host devices. -/
def takeOption (m : Match OptionId) (r : Record) : Reading Record :=
  match m.id with
  | .setting (.mark .json) => return r.mark .json
  | _ => refuseOption m

/-- How the options for host devices are taken. -/
def grammar : Grammar Record := recordGrammar refuseArgument takeOption

/-- Reads what is to be done, and tells how many words say so. -/
def ofWords? : List String → Option (UsbAssignment × Nat)
  | "list" :: _ => some (⟨.list, none, none⟩, 1)
  | "del" :: name :: _ => some (⟨.delete, some name, none⟩, 2)
  | "set" :: name :: owner :: _ => some (⟨.set, some name, some (uuidOrVerbatim owner)⟩, 3)
  | _ => none

end UsbAssignment

/-- Reads a line about the owners of host devices. -/
def readUsbLine (table : CommandTable) (position : Nat) (args : List String) : Reading Record := do
  match UsbAssignment.ofWords? (args.drop position) with
  | none => throw .invalidUsage
  | some (usb, words) =>
    let record := Record.ofAction .serverUsb
    UsbAssignment.grammar.read { record with usb := usb } (table.read args (position + words))

/-- Reads a line about traffic shaping, which can only be started anew. -/
def readShapingLine (table : CommandTable) (position : Nat) (args : List String) :
    Reading Record :=
  if args[position]? = some "restart" then
    readServerLine .serverShapingRestart table (position + 1) args
  else throw .invalidUsage

end VmControl
