import VmControl.Numeral
import VmControl.Proofs.Options.Position

/-!
# Computations that may trap

The readers of lines and values look things up by number: an argument by its place on the line, a
part of a text by the bytes at which it starts and ends.  Numbers can be wrong, and arithmetic on
machine words has bounds.  A checked computation says what it takes for granted: it is a value, or
the trap that it fell into.

A text is cut at bytes that were found by searching it, so no character is cut in two.  That is
what the lemmas about `Text.findByte` and `Text.rfindByte` are for: they turn the byte at which a
search ends into the text before it.

## Main definitions

* `Trap`, `Checked`: what can go wrong, and a computation in which it can.
* `Checked.cut`, `Checked.item`, `Checked.minus` and their like: the operations that can trap.

## Main statements

* `Checked.upTo_eq_ok`, `Checked.onFrom_eq_ok`: a text is cut behind each of its parts without a
  trap.
* `Text.findByte_getD`, `Text.rfindByte_eq`: what stands in front of the byte that a search finds.
-/

namespace VmControl

namespace Text

/-! ## Bytes of a text -/

/-- The byte at which the last character with `p` starts. -/
def rfindByte (p : Char → Bool) : List Char → Option Nat
  | [] => none
  | c :: cs =>
    match rfindByte p cs with
    | some n => some (c.utf8Size + n)
    | none => if p c then some 0 else none

/-- What stands in front of the first character with `p` has none; without one it is everything. -/
theorem findByte_getD (p : Char → Bool) (cs : List Char) :
    (findByte p cs).getD (byteLength cs) = byteLength (cs.takeWhile fun c => !p c) := by
  induction cs with
  | nil => rfl
  | cons c cs ih =>
    cases hc : p c with
    | true => simp [findByte, hc]
    | false =>
      cases hfind : findByte p cs with
      | none => simp_all [findByte]
      | some n => simp_all [findByte]

/-- A search comes to nothing exactly if every character is without `p`. -/
theorem findByte_eq_none {p : Char → Bool} {cs : List Char} :
    findByte p cs = none ↔ cs.takeWhile (fun c => !p c) = cs := by
  induction cs with
  | nil => simp [findByte]
  | cons c cs ih => cases hc : p c <;> simp [findByte, hc, ih]

/-- The last separator is where `cutLast` cuts. -/
theorem rfindByte_eq (sep : Char) (cs : List Char) :
    rfindByte (· == sep) cs = (cutLast sep cs).map fun parts => byteLength parts.1 := by
  induction cs with
  | nil => rfl
  | cons c cs ih =>
    cases hcut : cutLast sep cs with
    | some parts => simp [rfindByte, cutLast, ih, hcut]
    | none => by_cases hc : c = sep <;> simp [rfindByte, cutLast, ih, hcut, hc]

/-- Whether a character starts at byte `n`, or the text ends there. -/
def isBoundary (n : Nat) (cs : List Char) : Bool := (cutByte? n cs).isSome

/-- A character ends after one byte exactly if it has one. -/
theorem isBoundary_succ {before after : List Char} {c : Char} {n : Nat}
    (h : byteLength before = n) :
    isBoundary (n + 1) (before ++ c :: after) = true ↔ c.utf8Size = 1 := by
  have hpos := c.utf8Size_pos
  rw [isBoundary, Option.isSome_iff_exists]
  constructor
  · rintro ⟨⟨front, back⟩, hcut⟩
    obtain ⟨happend, hfront⟩ := cutByte?_eq_some.1 hcut
    obtain ⟨part, rfl, hpart⟩ | ⟨part, rfl, -⟩ := List.append_eq_append_iff.1 happend
    · cases part with
      | nil =>
        rw [List.append_nil] at hfront
        omega
      | cons d part =>
        obtain ⟨rfl, -⟩ := List.cons.inj hpart
        rw [byteLength_append, byteLength_cons] at hfront
        omega
    · rw [byteLength_append] at h
      omega
  · intro hc
    refine ⟨(before ++ [c], after), cutByte?_eq_some.2 ⟨by simp, ?_⟩⟩
    rw [byteLength_append, byteLength_cons, byteLength_nil, hc, h]

end Text

open Numeral Options Text

/-- What can go wrong in a computation. -/
inductive Trap where
  /-- There is nothing at the position that is looked up. -/
  | outOfRange
  /-- A text is cut where no character starts, or behind its end. -/
  | splitCharacter
  /-- More is taken away than there is. -/
  | underflow
  /-- A number does not fit its word. -/
  | overflow
  | divisionByZero
  /-- A loop has not come to its end after as many rounds as it may take. -/
  | endless
  /-- A line is read from a position that is none. -/
  | position (fault : Fault)
  deriving DecidableEq, Repr

/-- A computation that may trap. -/
abbrev Checked := Except Trap

namespace Checked

/-! ## Parts of texts -/

/-- The text before and after a byte. -/
def cut (n : Nat) (cs : List Char) : Checked (List Char × List Char) :=
  match cutByte? n cs with
  | some parts => .ok parts
  | none => .error .splitCharacter

/-- A character of two bytes is not cut in two. -/
example : cut 1 ['ü'] = .error .splitCharacter := rfl

/-- The text up to a byte. -/
def upTo (stop : Nat) (cs : List Char) : Checked (List Char) := do
  let (before, _) ← cut stop cs
  return before

/-- The text from a byte on. -/
def onFrom (start : Nat) (cs : List Char) : Checked (List Char) := do
  let (_, after) ← cut start cs
  return after

/-- The text between two bytes. -/
def between (start stop : Nat) (cs : List Char) : Checked (List Char) := do
  if stop < start then throw .outOfRange
  onFrom start (← upTo stop cs)

/-- The text with that between two bytes replaced. -/
def replaceRange (start stop : Nat) (new cs : List Char) : Checked (List Char) := do
  if stop < start then throw .outOfRange
  let before ← upTo start cs
  let after ← onFrom stop cs
  return before ++ new ++ after

section Parts

variable {start stop : Nat} {cs before middle after : List Char}

theorem upTo_eq_ok (hcs : cs = before ++ after) (hstop : byteLength before = stop) :
    upTo stop cs = .ok before := by
  simp only [upTo, cut, cutByte?_eq_some.2 ⟨hcs, hstop⟩]
  rfl

theorem onFrom_eq_ok (hcs : cs = before ++ after) (hstart : byteLength before = start) :
    onFrom start cs = .ok after := by
  simp only [onFrom, cut, cutByte?_eq_some.2 ⟨hcs, hstart⟩]
  rfl

/-- The text behind a character of one byte. -/
theorem onFrom_succ_eq_ok {c : Char} (hcs : cs = before ++ c :: after) (hc : c.utf8Size = 1)
    (hstart : byteLength before = start) : onFrom (start + 1) cs = .ok after := by
  refine onFrom_eq_ok (show cs = before ++ [c] ++ after by simp [hcs]) ?_
  rw [byteLength_append, byteLength_cons, byteLength_nil, hc, hstart]

theorem between_eq_ok (hcs : cs = before ++ middle ++ after) (hstart : byteLength before = start)
    (hstop : byteLength (before ++ middle) = stop) : between start stop cs = .ok middle := by
  have hle : ¬ stop < start := by
    rw [← hstart, ← hstop, byteLength_append]
    omega
  simp only [between, hle, if_false, upTo_eq_ok hcs hstop]
  exact onFrom_eq_ok rfl hstart

theorem replaceRange_eq_ok (new : List Char) (hcs : cs = before ++ middle ++ after)
    (hstart : byteLength before = start) (hstop : byteLength (before ++ middle) = stop) :
    replaceRange start stop new cs = .ok (before ++ new ++ after) := by
  have hle : ¬ stop < start := by
    rw [← hstart, ← hstop, byteLength_append]
    omega
  simp only [replaceRange, hle, if_false, onFrom_eq_ok hcs hstop,
    upTo_eq_ok (hcs.trans (List.append_assoc ..)) hstart]
  rfl

/-- A text is cut behind its first characters with `p`. -/
@[simp] theorem upTo_takeWhile (p : Char → Bool) (cs : List Char) :
    upTo (byteLength (cs.takeWhile p)) cs = .ok (cs.takeWhile p) :=
  upTo_eq_ok List.takeWhile_append_dropWhile.symm rfl

@[simp] theorem onFrom_takeWhile (p : Char → Bool) (cs : List Char) :
    onFrom (byteLength (cs.takeWhile p)) cs = .ok (cs.dropWhile p) :=
  onFrom_eq_ok List.takeWhile_append_dropWhile.symm rfl

end Parts

/-! ## Items of lists -/

variable {α β : Type}

/-- The item at a position. -/
def item (xs : List α) (i : Nat) : Checked α :=
  match xs[i]? with
  | some x => .ok x
  | none => .error .outOfRange

/-- The items from a position on. -/
def itemsFrom (xs : List α) (i : Nat) : Checked (List α) :=
  if i ≤ xs.length then .ok (xs.drop i) else .error .outOfRange

/-- The list with every item between two positions replaced. -/
def fill (start stop : Nat) (x : α) (xs : List α) : Checked (List α) :=
  if stop < start ∨ xs.length < stop then .error .outOfRange
  else .ok (xs.take start ++ List.replicate (stop - start) x ++ xs.drop stop)

theorem item_eq_ok {xs : List α} {i : Nat} {x : α} (h : xs[i]? = some x) : item xs i = .ok x := by
  simp [item, h]

theorem itemsFrom_eq_ok {xs : List α} {i : Nat} (h : i ≤ xs.length) :
    itemsFrom xs i = .ok (xs.drop i) :=
  if_pos h

/-! ## Arithmetic -/

/-- A difference of numbers without sign. -/
def minus (a b : Nat) : Checked Nat := if b ≤ a then .ok (a - b) else .error .underflow

/-- A quotient. -/
def divide (a b : Nat) : Checked Nat := if b = 0 then .error .divisionByZero else .ok (a / b)

/-- A product of two words of 32 bits with sign. -/
def timesSigned (a b : Int) : Checked Int :=
  if -(word32 / 2 : Nat) ≤ a * b ∧ a * b < (word32 / 2 : Nat) then .ok (a * b)
  else .error .overflow

/-- A word of 64 bits in which bit `n` is set. -/
def bit (n : Nat) : Checked Nat := if n < 64 then .ok (1 <<< n) else .error .overflow

theorem minus_eq_ok {a b : Nat} (h : b ≤ a) : minus a b = .ok (a - b) := if_pos h

theorem divide_eq_ok {a b : Nat} (h : b ≠ 0) : divide a b = .ok (a / b) := if_neg h

theorem timesSigned_eq_ok {a b : Int} (hlow : -(word32 / 2 : Nat) ≤ a * b)
    (hhigh : a * b < (word32 / 2 : Nat)) : timesSigned a b = .ok (a * b) :=
  if_pos ⟨hlow, hhigh⟩

theorem bit_eq_ok {n : Nat} (h : n < 64) : bit n = .ok (1 <<< n) := if_pos h

/-! ## What follows a computation -/

@[simp] theorem ok_bind (a : α) (f : α → Checked β) : (.ok a : Checked α) >>= f = f a := rfl

end Checked

end VmControl
