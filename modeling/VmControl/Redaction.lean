import VmControl.Options.Cursor

/-!
# Redaction

The bytes of an argument vector, in which credentials are overwritten with zeros once they have
been read.

## Main statements

* `ArgumentBytes.byte?_wipe`: a byte is zero after a slot was wiped exactly if it was zero before
  or lies in the slot, and nothing else changes.
-/

namespace VmControl

open Options

/-- An argument vector as bytes. -/
structure ArgumentBytes where
  /-- The bytes of each argument. -/
  toList : List (List UInt8)
  deriving DecidableEq

namespace ArgumentBytes

/-- The bytes of the arguments in UTF-8. -/
def ofArgs (args : List String) : ArgumentBytes := ⟨args.map fun arg => arg.toUTF8.toList⟩

/-- The byte at a position of an argument. -/
def byte? (b : ArgumentBytes) (index position : Nat) : Option UInt8 :=
  b.toList[index]?.bind (·[position]?)

/-- The argument with zeros in the bytes of a slot that it has. -/
def wipeArgument (s : Slot) (bytes : List UInt8) : List UInt8 :=
  bytes.mapIdx fun j b => if s.start ≤ j ∧ j < s.stop then 0 else b

/-- The vector with zeros in the bytes of a slot that it has. -/
def wipe (b : ArgumentBytes) (s : Slot) : ArgumentBytes :=
  ⟨b.toList.modify s.index (wipeArgument s)⟩

/-- The vector with zeros in the bytes of all slots. -/
def wipeAll (b : ArgumentBytes) (slots : List Slot) : ArgumentBytes := slots.foldl wipe b

/-- What is shown of a byte: an asterisk for a byte that was wiped. -/
def shown (b : UInt8) : Char := if b = 0 then '*' else Char.ofNat b.toNat

/-- What is shown of an argument, one character for each byte. -/
def display? (b : ArgumentBytes) (index : Nat) : Option String :=
  b.toList[index]?.map fun bytes => String.ofList (bytes.map shown)

/-- The arguments that differ from those before, with what is shown of them. -/
def changes (before after : ArgumentBytes) : List (Nat × String) :=
  (List.range after.toList.length).filterMap fun i =>
    if before.toList[i]? = after.toList[i]? then none
    else (after.display? i).map fun text => (i, text)

/-- **Wiping a slot sets its bytes to zero and leaves all others alone.** -/
theorem byte?_wipe (b : ArgumentBytes) (s : Slot) (i j : Nat) :
    (b.wipe s).byte? i j =
      (b.byte? i j).map fun v => if s.index = i ∧ s.start ≤ j ∧ j < s.stop then 0 else v := by
  simp only [byte?, wipe, List.getElem?_modify]
  cases b.toList[i]? with
  | none => rfl
  | some bytes =>
    by_cases h : s.index = i
    · simp [h, wipeArgument, List.getElem?_mapIdx]
    · simp [h]

end ArgumentBytes

end VmControl
