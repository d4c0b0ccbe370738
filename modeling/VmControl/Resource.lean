import VmControl.Setting.Basic

/-!
# Container resources

Limits of a container, and the rates of its traffic classes.
-/

namespace VmControl

open Numeral Text

/-- A resource that containers share. -/
inductive ResourceKind where
  | swapPages
  | quotaUgidLimit
  deriving DecidableEq, Repr

/-- The limit of a resource. -/
structure ResourceLimit where
  /-- The resource. -/
  kind : ResourceKind
  /-- How much of it there is. -/
  limits : LimitPair
  deriving DecidableEq, Repr

/-- The bytes of a memory page. -/
def pageSize : Nat := 4096

namespace ResourceLimit

/-- The limit, or the error that names the option. -/
def choose (kind : ResourceKind) (option value : String) :
    Option LimitPair → Except CommandError ResourceLimit
  | some p => .ok ⟨kind, p⟩
  | none => .error (.refused (.resourceLimit option value))

/-- Reads a limit of swap space.  A numeral alone counts pages. -/
def readSwapPages (option value : String) : Except CommandError ResourceLimit :=
  choose .swapPages option value (readLimitPair pageSize 1 value)

/-- Reads a limit of swap space.  A numeral alone counts bytes. -/
def readSwap (option value : String) : Except CommandError ResourceLimit :=
  choose .swapPages option value (readLimitPair pageSize pageSize value)

/-- Reads the limit of users and groups with a quota. -/
def readQuota (option value : String) : Except CommandError ResourceLimit :=
  choose .quotaUgidLimit option value
    ((digits word32 value.toList).map fun n => ⟨n, n⟩)

end ResourceLimit

/-- The rate of a traffic class. -/
structure ClassRate where
  /-- The class. -/
  classId : Nat
  /-- The rate, in kilobits a second. -/
  rate : Nat
  deriving DecidableEq, Repr

/-- Reads `CLASS:RATE`. -/
def ClassRate.read? (s : String) : Option ClassRate := do
  let (classId, rate) ← cutFirst ':' s.toList
  let classId ← digits word32 classId
  let rate ← digits word32 rate
  return ⟨classId, rate⟩

end VmControl
