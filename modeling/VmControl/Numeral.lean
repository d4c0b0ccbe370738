import VmControl.Text.Blank

/-!
# Decimal numerals

Readers of decimal numerals below a bound.  All of them know the ten ASCII digits only and fail
on a value that is out of range; they differ in the signs that they take.
-/

namespace VmControl.Numeral

/-- The number of values of a 16-bit word: ports are below it. -/
abbrev word16 : Nat := 0x10000

/-- The number of values of a 32-bit word. -/
abbrev word32 : Nat := 0x100000000

/-- The number of values of a 64-bit word. -/
abbrev word64 : Nat := 0x10000000000000000

/-- The value of a run of digits, most significant first. -/
def ofDigits (cs : List Char) : Nat :=
  cs.foldl (fun n c => 10 * n + (c.toNat - '0'.toNat)) 0

/-- The value of a text that consists of digits, at least one. -/
def ofDigits? (cs : List Char) : Option Nat :=
  if cs ≠ [] ∧ cs.all Char.isDigit then some (ofDigits cs) else none

/-- Keeps a number that is below `bound`. -/
def below (bound : Nat) (n : Nat) : Option Nat :=
  if n < bound then some n else none

/-- A numeral of digits alone, with a value below `bound`. -/
def digits (bound : Nat) (cs : List Char) : Option Nat :=
  (ofDigits? cs).bind (below bound)

/-- A numeral with a value below `bound`; one plus sign may precede the digits. -/
def unsigned (bound : Nat) : List Char → Option Nat
  | '+' :: cs => digits bound cs
  | cs => digits bound cs

/-- A numeral from `-bound` to `bound - 1`; one sign may precede the digits. -/
def signed (bound : Nat) : List Char → Option Int
  | '-' :: cs => (digits (bound + 1) cs).map fun n => -(n : Int)
  | '+' :: cs => (digits bound cs).map Int.ofNat
  | cs => (digits bound cs).map Int.ofNat

/-- The number at the start of a text: blanks, at most one sign, and digits.  It is zero where there
are no digits, and where they exceed 31 bits. -/
def leading (cs : List Char) : Int :=
  let magnitude (ds : List Char) : Nat := (digits (word32 / 2) (ds.takeWhile Char.isDigit)).getD 0
  match Text.trimStart cs with
  | '-' :: ds => -(magnitude ds : Int)
  | '+' :: ds => magnitude ds
  | ds => magnitude ds

/-- The longest prefix of digits, and the rest. -/
def splitDigits (cs : List Char) : List Char × List Char :=
  (cs.takeWhile Char.isDigit, cs.dropWhile Char.isDigit)

theorem splitDigits_append (cs : List Char) : (splitDigits cs).1 ++ (splitDigits cs).2 = cs := by
  simp [splitDigits]

theorem below_eq_some {bound n m : Nat} : below bound n = some m ↔ n = m ∧ n < bound := by
  unfold below
  split
  · simp only [Option.some.injEq]; omega
  · simp only [reduceCtorEq, false_iff]; omega

/-- A digits-only reader returns values below its bound. -/
theorem digits_lt {bound n : Nat} {cs : List Char} (h : digits bound cs = some n) : n < bound := by
  obtain ⟨m, _, hm⟩ := Option.bind_eq_some_iff.1 h
  have := below_eq_some.1 hm
  omega

end VmControl.Numeral
