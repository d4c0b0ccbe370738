import VmControl.Login
import VmControl.Setting.Choice

/-!
# Things of the host

USB devices that machines own, and the templates of containers.
-/

namespace VmControl

/-- What is to be done to the assignment of a USB device. -/
inductive UsbCommand where
  | list
  | set
  | delete
  deriving DecidableEq, Repr

/-- A USB device and the machine that owns it. -/
structure UsbAssignment where
  /-- What is to be done. -/
  command : UsbCommand
  /-- The device. -/
  name : Option String
  /-- The machine. -/
  owner : Option String
  deriving DecidableEq, Repr

/-- The list of assignments. -/
def UsbAssignment.empty : UsbAssignment := ⟨.list, none, none⟩

/-- What is to be done to a container template. -/
inductive TemplateCommand where
  | list
  | remove
  deriving DecidableEq, Repr

/-- A container template. -/
structure Template where
  /-- What is to be done. -/
  command : TemplateCommand
  /-- The template. -/
  name : Option String
  /-- The system template that it builds on. -/
  osName : Option String
  deriving DecidableEq, Repr

/-- The list of templates. -/
def Template.empty : Template := ⟨.list, none, none⟩

/-- The copy of a container template to another host. -/
structure TemplateCopy where
  /-- The other host. -/
  destination : Login
  /-- Whether checks are skipped. -/
  force : Bool
  /-- How far the network is trusted. -/
  securityLevel : Option SecurityLevel
  deriving DecidableEq

/-- No copy. -/
def TemplateCopy.empty : TemplateCopy := ⟨∅, false, none⟩

end VmControl
