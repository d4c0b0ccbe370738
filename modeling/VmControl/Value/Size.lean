import VmControl.Numeral
import VmControl.Text.Cut

/-!
# Sizes and limits

Sizes are decimal numerals with at most one letter for the unit behind them.  The arithmetic is
exact: a size that does not fit 64 bits is refused.  A limit that exceeds the largest limit is taken
as that limit, and bytes of a limit that do not fit 64 bits are taken as the most that do.
-/

namespace VmControl

open Numeral Text

/-- The number of bytes in a mebibyte. -/
def mebibyte : Nat := 1 <<< 20

/-- The number of bytes that a unit letter stands for, in either case. -/
def unitBytes? (c : Char) : Option Nat :=
  match c.toLower with
  | 'b' => some 1
  | 'k' => some (1 <<< 10)
  | 'm' => some (1 <<< 20)
  | 'g' => some (1 <<< 30)
  | 't' => some (1 <<< 40)
  | _ => none

/-! ## Sizes -/

/-- What a size is counted in. -/
inductive SizeUnit where
  /-- Whole mebibytes, rounded down. -/
  | mebibytes
  /-- Bytes. -/
  | bytes
  deriving DecidableEq, Repr

/-- Reads a numeral, which counts mebibytes, or a numeral with one unit letter. -/
def readSize (unit : SizeUnit) (s : String) : Option Nat :=
  let (numeral, tail) := splitDigits s.toList
  (digits word64 numeral).bind fun n =>
    match tail, unit with
    | [], .mebibytes => some n
    | [], .bytes => below word64 (n * mebibyte)
    | [c], unit =>
      (unitBytes? c).bind fun w => (below word64 (n * w)).map fun bytes =>
        match unit with
        | .mebibytes => bytes / mebibyte
        | .bytes => bytes
    | _, _ => none

/-! ## Limits -/

/-- The largest limit, which also stands for no limit at all. -/
def limitMax : Nat := word64 / 2 - 1

/-- Reads one side of a limit: `unlimited`, a numeral in units of `1 / plainDiv`, or a numeral
with a unit letter in units of `div` bytes. -/
def readLimit (div plainDiv : Nat) (cs : List Char) : Option Nat :=
  if cs = "unlimited".toList then some limitMax
  else
    let (numeral, tail) := splitDigits cs
    (digits word64 numeral).bind fun n =>
      match tail with
      | [] => some (min (n / plainDiv) limitMax)
      | [c] => (unitBytes? c).map fun w => min (min (n * w) (word64 - 1) / div) limitMax
      | _ => none

/-- A soft limit and the hard limit above it. -/
structure LimitPair where
  /-- Where throttling starts. -/
  barrier : Nat
  /-- What cannot be exceeded. -/
  limit : Nat
  deriving DecidableEq, Repr

/-- Reads `BARRIER[:LIMIT]`; a limit that is left out equals the barrier. -/
def readLimitPair (div plainDiv : Nat) (s : String) : Option LimitPair :=
  match cutFirst ':' s.toList with
  | some (barrier, limit) =>
    (readLimit div plainDiv barrier).bind fun b =>
      (readLimit div plainDiv limit).map fun l => ⟨b, l⟩
  | none => (readLimit div plainDiv s.toList).map fun b => ⟨b, b⟩

/-! ## Processor limits -/

/-- How much processor time a guest may take. -/
inductive CpuLimit where
  /-- A share of one processor. -/
  | percent (n : Nat)
  /-- Clock cycles, in millions a second. -/
  | mhz (n : Nat)
  deriving DecidableEq, Repr

/-- Reads `N`, `N%`, `Nm` or `Nmhz`. -/
def CpuLimit.read (s : String) : Option CpuLimit :=
  let (numeral, tail) := splitDigits s.toList
  (digits word32 numeral).bind fun n =>
    match String.ofList tail with
    | "" => some (.percent n)
    | "%" => some (.percent n)
    | "m" => some (.mhz n)
    | "mhz" => some (.mhz n)
    | _ => none

end VmControl
