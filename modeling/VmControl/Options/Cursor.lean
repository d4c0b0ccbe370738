import VmControl.Options.Table
import VmControl.Text.Cut

/-!
# Reading options off an argument vector

A cursor walks an argument vector one option at a time.

* A long option is `--name`, or `--name=value` with the value inline; the name is everything up to
  the first `=` and has to be a name of the table in full.
* A short option is a character of a run: `-abc` holds the options `a`, `b` and `c`.  What is left
  of the run after an option that takes a value is that value.
* A value that is not inline is the whole next argument.
* An argument that the table does not know is handed back as it stands.

A value comes with the bytes of the argument vector that it was read from, so that a credential
can be wiped there.

## Main statements

* `Cursor.unread_step_lt`: a step that delivers something leaves less unread than it found, so
  `Cursor.stream` ends.
-/

namespace VmControl.Options

open VmControl.Text

/-- The bytes `start ≤ b < stop` of the argument at `index`. -/
structure Slot where
  /-- The position of the argument. -/
  index : Nat
  /-- The offset of the first byte. -/
  start : Nat
  /-- The offset after the last byte. -/
  stop : Nat
  deriving DecidableEq, Repr

/-- The value of an option, with the place it was read from. -/
structure Value where
  /-- The value itself. -/
  text : String
  /-- Where it stands in the argument vector. -/
  slot : Slot
  deriving DecidableEq, Repr

/-- One occurrence of an option. -/
structure Match (ι : Type) where
  /-- The id that the table gives it. -/
  id : ι
  /-- The option as it was spelled, `--name` or `-n`. -/
  name : String
  /-- The value, if the option takes one. -/
  value : Option Value
  deriving DecidableEq, Repr

namespace Match

variable {ι : Type}

/-- The text of the value, empty for an option without one. -/
def text (m : Match ι) : String :=
  match m.value with
  | some v => v.text
  | none => ""

/-- Where the value stands. -/
def slot? (m : Match ι) : Option Slot := m.value.map (·.slot)

end Match

/-- What a step of the cursor delivers. -/
inductive Event (ι : Type) where
  /-- An option of the table. -/
  | option (m : Match ι)
  /-- An argument that is none. -/
  | unknown (index : Nat) (token : String)
  deriving DecidableEq, Repr

/-- An option that takes a value was the last word of the line. -/
structure MissingValue where
  /-- The option as it was spelled. -/
  name : String
  deriving DecidableEq, Repr

/-- A run of short options of which some are still to be read. -/
structure Run where
  /-- The position of the argument that holds the run. -/
  index : Nat
  /-- That argument. -/
  token : String
  /-- The number of its bytes that have been read. -/
  offset : Nat
  /-- The next character to be read. -/
  head : Char
  /-- The characters after it. -/
  tail : List Char
  deriving DecidableEq, Repr

/-- A position in an argument vector. -/
structure Cursor where
  /-- The position of the next argument to be read. -/
  next : Nat
  /-- The arguments from there on. -/
  unread : List String
  /-- The run that the last step left unfinished. -/
  run : Option Run
  deriving DecidableEq, Repr

namespace Cursor

variable {ι : Type}

/-- The cursor that is about to read the argument at `start`. -/
def ofArgs (args : List String) (start : Nat) : Cursor :=
  ⟨start, args.drop start, none⟩

/-- The option with the next whole argument as its value. -/
def takeNext (c : Cursor) (id : ι) (name : String) :
    Except MissingValue (Option (Event ι)) × Cursor :=
  match c.unread with
  | [] => (.error ⟨name⟩, c)
  | arg :: rest =>
    (.ok (some (.option ⟨id, name, some ⟨arg, c.next, 0, byteLength arg.toList⟩⟩)),
      { c with next := c.next + 1, unread := rest })

/-- The long option in an argument that starts with `--`, `body` being what follows. -/
def readLong (c : Cursor) (t : Table ι) (index : Nat) (token : String) (body : List Char) :
    Except MissingValue (Option (Event ι)) × Cursor :=
  let (name, inline) := match cutFirst '=' body with
    | some (name, value) => (name, some value)
    | none => (body, none)
  match t.findLong? (String.ofList name) with
  | none => (.ok (some (.unknown index token)), c)
  | some e =>
    let spelled := "--" ++ String.ofList name
    if e.takesValue then
      match inline with
      | some value =>
        let slot := ⟨index, byteLength name + 3, byteLength token.toList⟩
        (.ok (some (.option ⟨e.id, spelled, some ⟨String.ofList value, slot⟩⟩)), c)
      | none => c.takeNext e.id spelled
    else (.ok (some (.option ⟨e.id, spelled, none⟩)), c)

/-- The short option at the head of a run.  A character that the table does not know ends the
run, and the argument that holds it counts as unknown as a whole. -/
def readShort (c : Cursor) (t : Table ι) (r : Run) :
    Except MissingValue (Option (Event ι)) × Cursor :=
  match t.findShort? r.head with
  | none => (.ok (some (.unknown r.index r.token)), c)
  | some e =>
    let spelled := "-" ++ String.singleton r.head
    let offset := r.offset + r.head.utf8Size
    match e.takesValue, r.tail with
    | true, [] => c.takeNext e.id spelled
    | true, tail =>
      let slot := ⟨r.index, offset, byteLength r.token.toList⟩
      (.ok (some (.option ⟨e.id, spelled, some ⟨String.ofList tail, slot⟩⟩)), c)
    | false, [] => (.ok (some (.option ⟨e.id, spelled, none⟩)), c)
    | false, head :: tail =>
      (.ok (some (.option ⟨e.id, spelled, none⟩)),
        { c with run := some { r with offset := offset, head := head, tail := tail } })

/-- One step: the next option or unknown argument, or nothing at the end of the line. -/
def step (t : Table ι) (c : Cursor) : Except MissingValue (Option (Event ι)) × Cursor :=
  match c.run with
  | some r => { c with run := none }.readShort t r
  | none =>
    match c.unread with
    | [] => (.ok none, c)
    | token :: rest =>
      let after : Cursor := ⟨c.next + 1, rest, none⟩
      match token.toList with
      | ['-', '-'] => (.ok (some (.unknown c.next token)), after)
      | '-' :: '-' :: body => after.readLong t c.next token body
      | '-' :: head :: tail => after.readShort t ⟨c.next, token, 1, head, tail⟩
      | _ => (.ok (some (.unknown c.next token)), after)

/-! ## Every step makes progress -/

/-- What is still unread: the bytes and the number of the unread arguments, and the bytes of the
unfinished run. -/
def unreadSize (c : Cursor) : Nat :=
  c.unread.foldr (fun arg n => byteLength arg.toList + 1 + n) 0 +
    match c.run with
    | some r => byteLength (r.head :: r.tail)
    | none => 0

theorem takeNext_unreadSize_le (c : Cursor) (id : ι) (name : String) :
    (c.takeNext id name).2.unreadSize ≤ c.unreadSize := by
  unfold takeNext
  split
  · exact Nat.le_refl _
  · next h =>
      simp only [unreadSize, h, List.foldr_cons]
      omega

theorem readLong_unreadSize_le (c : Cursor) (t : Table ι) (index : Nat) (token : String)
    (body : List Char) : (c.readLong t index token body).2.unreadSize ≤ c.unreadSize := by
  simp only [readLong]
  split
  · exact Nat.le_refl _
  · split
    · split
      · exact Nat.le_refl _
      · exact c.takeNext_unreadSize_le _ _
    · exact Nat.le_refl _

/-- Reading from a run gives up at least the character at its head. -/
theorem readShort_unreadSize_lt (c : Cursor) (t : Table ι) (r : Run) (h : c.run = none) :
    (c.readShort t r).2.unreadSize < c.unreadSize + byteLength (r.head :: r.tail) := by
  have hpos := r.head.utf8Size_pos
  simp only [readShort, byteLength_cons]
  split
  · show c.unreadSize < _
    omega
  · split
    · exact Nat.lt_of_le_of_lt (c.takeNext_unreadSize_le _ _) (by omega)
    · show c.unreadSize < _
      omega
    · show c.unreadSize < _
      omega
    · next htail =>
        simp only [unreadSize, h, htail, byteLength_cons]
        omega

/-- **A step that delivers something, or misses a value, leaves less unread than it found.** -/
theorem unread_step_lt (t : Table ι) (c : Cursor) (h : (c.step t).1.toOption ≠ some none) :
    (c.step t).2.unreadSize < c.unreadSize := by
  unfold step at h ⊢
  split
  · next r hr =>
      have := readShort_unreadSize_lt { c with run := none } t r rfl
      simp only [unreadSize, hr] at this ⊢
      omega
  · next hr =>
      split
      · next hun => simp [hr, hun, Except.toOption] at h
      · next token rest hun =>
          have hsize : c.unreadSize =
              (⟨c.next + 1, rest, none⟩ : Cursor).unreadSize + (byteLength token.toList + 1) := by
            simp only [unreadSize, hr, hun, List.foldr_cons]
            omega
          rw [hsize]
          dsimp only
          split
          · simp only [unreadSize]; omega
          · next body _ _ =>
              have := readLong_unreadSize_le ⟨c.next + 1, rest, none⟩ t c.next token body
              omega
          · next htok =>
              refine Nat.lt_of_lt_of_le (readShort_unreadSize_lt _ t _ rfl) ?_
              simp only [htok, byteLength_cons]
              omega
          · simp only [unreadSize]; omega

end Cursor

/-- Everything that a cursor delivers from one table: the events in order, and the option whose
value was missing if the line ends on one. -/
structure Stream (ι : Type) where
  /-- The events in order. -/
  events : List (Event ι)
  /-- The option that misses its value. -/
  missing : Option MissingValue
  deriving DecidableEq, Repr

/-- The stream of a cursor. -/
def Cursor.stream {ι : Type} (t : Table ι) (c : Cursor) : Stream ι :=
  match _h : (c.step t).1 with
  | .error e => ⟨[], some e⟩
  | .ok none => ⟨[], none⟩
  | .ok (some event) =>
    let rest := (c.step t).2.stream t
    { rest with events := event :: rest.events }
termination_by c.unreadSize
decreasing_by exact c.unread_step_lt t (by simp [_h, Except.toOption])

/-- The stream of the arguments from `start` on. -/
def Table.read {ι : Type} (t : Table ι) (args : List String) (start : Nat) : Stream ι :=
  (Cursor.ofArgs args start).stream t

end VmControl.Options
