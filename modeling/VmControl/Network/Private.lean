import VmControl.Value.Address

/-!
# Private networks

Sets of addresses that containers reach each other by.
-/

namespace VmControl

/-- What is to be done to a private network. -/
inductive PrivateCommand where
  | add
  | set
  | delete
  | list
  deriving DecidableEq, Repr

/-- A private network and what is to be done to it. -/
structure PrivateNetwork where
  /-- What is to be done. -/
  command : PrivateCommand
  /-- The name of the network. -/
  name : Option String
  /-- The addresses to add. -/
  addresses : List String
  /-- The addresses to remove. -/
  removed : List String
  /-- Whether the network is open to containers outside it. -/
  isGlobal : Option Bool
  deriving DecidableEq, Repr

namespace PrivateNetwork

/-- The list of networks. -/
def empty : PrivateNetwork := ⟨.list, none, [], [], none⟩

/-- An address as it is kept.  An asterisk stands for all addresses. -/
def keptAddress (value : String) : String :=
  if value = "*" then value else normalizeIp value

end PrivateNetwork

end VmControl
