/-!
# On and off

The two vocabularies of a switch.
-/

namespace VmControl.Toggle

/-- Reads `on` or `yes` as on, and `off` or `no` as off. -/
def read : String → Option Bool
  | "on" => some true
  | "yes" => some true
  | "off" => some false
  | "no" => some false
  | _ => none

/-- Reads `on` and `off` only. -/
def readStrict : String → Option Bool
  | "on" => some true
  | "off" => some false
  | _ => none

end VmControl.Toggle
