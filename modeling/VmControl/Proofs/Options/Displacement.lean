import VmControl.Proofs.Options.Pieces

/-!
# Lines behind other arguments

What is read from an argument does not depend on where the argument stands, but for the places of
what is delivered: behind `n` more arguments a line reads the same, with every place `n` further on.
Nor does what a step delivers depend on the arguments that it has not come to.  So a line that is
read to its end and goes on with a second one reads as the first line and then the second, moved
behind the first.

## Main definitions

* `Stream.shift`: what is read from a line, so many arguments further on.
* `Cursor.extend`: a cursor on a line that goes on.

## Main statements

* `Cursor.step_shift`: a step further on delivers the same further on.
* `Table.read_behind`: behind other arguments a line reads the same, further on.
* `Cursor.step_extend`: what a step delivers does not depend on later arguments.
* `Table.read_line_append`: two lines in a row read as the one and then the other.
-/

namespace VmControl.Options

open VmControl.Text

variable {ι : Type}

/-! ## Places further on -/

/-- The same bytes of the argument that stands `n` further on. -/
def Slot.shift (n : Nat) (s : Slot) : Slot := { s with index := s.index + n }

/-- The same value, read `n` arguments further on. -/
def Value.shift (n : Nat) (v : Value) : Value := { v with slot := v.slot.shift n }

/-- The same option, read `n` arguments further on. -/
def Match.shift (n : Nat) (m : Match ι) : Match ι := { m with value := m.value.map (·.shift n) }

/-- The same event, `n` arguments further on. -/
def Event.shift (n : Nat) : Event ι → Event ι
  | .option m => .option (m.shift n)
  | .unknown index token => .unknown (index + n) token

/-- The same stream, `n` arguments further on.  A missing value is not said to be anywhere. -/
def Stream.shift (n : Nat) (s : Stream ι) : Stream ι :=
  { s with events := s.events.map (·.shift n) }

/-- The same run, `n` arguments further on. -/
def Run.shift (n : Nat) (r : Run) : Run := { r with index := r.index + n }

/-- The same demand, `n` arguments further on. -/
def Demand.shift (n : Nat) : Demand ι → Demand ι
  | .deliver event run => .deliver (event.shift n) (run.map (·.shift n))
  | .await id name => .await id name

/-- The same cursor, `n` arguments further on. -/
def Cursor.shift (n : Nat) (c : Cursor) : Cursor :=
  ⟨c.next + n, c.unread, c.run.map (·.shift n)⟩

namespace Match

@[simp] theorem shift_id (n : Nat) (m : Match ι) : (m.shift n).id = m.id := rfl

@[simp] theorem shift_name (n : Nat) (m : Match ι) : (m.shift n).name = m.name := rfl

@[simp] theorem shift_text (n : Nat) (m : Match ι) : (m.shift n).text = m.text := by
  obtain ⟨id, name, _ | v⟩ := m <;> rfl

@[simp] theorem shift_slot? (n : Nat) (m : Match ι) :
    (m.shift n).slot? = m.slot?.map (·.shift n) := by
  obtain ⟨id, name, _ | v⟩ := m <;> rfl

end Match

/-! ## A cursor further on -/

namespace Demand

variable (t : Table ι) (n : Nat)

theorem ofLong_shift (index : Nat) (token : String) (body : List Char) :
    ofLong t (index + n) token body = (ofLong t index token body).shift n := by
  unfold ofLong
  cases cutFirst '=' body with
  | none =>
    dsimp only
    cases t.findLong? (String.ofList body) with
    | none => rfl
    | some e => cases h : e.takesValue <;> simp [h, shift, Event.shift, Match.shift]
  | some cut =>
    dsimp only
    cases t.findLong? (String.ofList cut.1) with
    | none => rfl
    | some e =>
      cases h : e.takesValue <;>
        simp [h, shift, Event.shift, Match.shift, Value.shift, Slot.shift]

theorem ofRun_shift (r : Run) : ofRun t (r.shift n) = (ofRun t r).shift n := by
  obtain ⟨index, token, offset, head, tail⟩ := r
  unfold ofRun Run.shift
  dsimp only
  cases t.findShort? head with
  | none => rfl
  | some e =>
    dsimp only
    cases e.takesValue <;> cases tail <;> rfl

/-- What an argument asks for does not depend on where it stands. -/
theorem ofToken_shift (index : Nat) (token : String) :
    ofToken t (index + n) token = (ofToken t index token).shift n := by
  unfold ofToken
  split
  · rfl
  · exact ofLong_shift t n index token _
  · next head tail _ _ _ => exact ofRun_shift t n ⟨index, token, 1, head, tail⟩
  · rfl

end Demand

namespace Cursor

/-- What a step comes to, `n` arguments further on. -/
def shiftOutcome (n : Nat) (x : Except MissingValue (Option (Event ι)) × Cursor) :
    Except MissingValue (Option (Event ι)) × Cursor :=
  (x.1.map (Option.map (·.shift n)), x.2.shift n)

theorem meet_shift (n next : Nat) (unread : List String) (d : Demand ι) :
    (⟨next + n, unread, none⟩ : Cursor).meet (d.shift n) =
      shiftOutcome n ((⟨next, unread, none⟩ : Cursor).meet d) := by
  cases d with
  | deliver event run => rfl
  | await id name =>
    cases unread with
    | nil => rfl
    | cons arg unread =>
      simp only [Demand.shift, meet, takeNext, shiftOutcome, shift, Nat.add_right_comm next n 1]
      rfl

/-- **A step further on delivers the same further on.** -/
theorem step_shift (t : Table ι) (n : Nat) (c : Cursor) :
    (c.shift n).step t = shiftOutcome n (c.step t) := by
  obtain ⟨next, unread, _ | r⟩ := c
  · cases unread with
    | nil => rfl
    | cons token unread =>
      rw [step_cons, ← meet_shift, ← Demand.ofToken_shift, Nat.add_right_comm]
      exact step_cons t (next + n) token unread
  · rw [step_run, ← meet_shift, ← Demand.ofRun_shift]
    exact step_run t (next + n) unread (r.shift n)

/-- So a cursor further on reads the same further on. -/
theorem stream_shift (t : Table ι) (n : Nat) (c : Cursor) :
    (c.shift n).stream t = (c.stream t).shift n := by
  fun_induction Cursor.stream t c with
  | case1 c e hstep =>
    have hshift : (c.shift n).step t = (.error e, (c.step t).2.shift n) := by
      rw [step_shift, shiftOutcome, hstep]
      rfl
    exact stream_of_missing hshift
  | case2 c hstep =>
    have hshift : (c.shift n).step t = (.ok none, (c.step t).2.shift n) := by
      rw [step_shift, shiftOutcome, hstep]
      rfl
    exact stream_of_done hshift
  | case3 c event hstep rest ih =>
    have hshift : (c.shift n).step t = (.ok (some (event.shift n)), (c.step t).2.shift n) := by
      rw [step_shift, shiftOutcome, hstep]
      rfl
    rw [stream_of_step hshift, ih]
    rfl

end Cursor

/-- **Behind other arguments a line reads the same, further on**: it makes no difference to what is
read from an argument which ones are before it, but for how many there are. -/
theorem Table.read_behind (t : Table ι) {args args' : List String} {start n : Nat}
    (h : args'.drop (start + n) = args.drop start) :
    t.read args' (start + n) = (t.read args start).shift n := by
  show (Cursor.ofArgs args' (start + n)).stream t = _
  rw [Cursor.ofArgs, h]
  exact Cursor.stream_shift t n (.ofArgs args start)

/-! ## A line that goes on -/

namespace Cursor

/-- The same cursor on a line that goes on with `extra`. -/
def extend (extra : List String) (c : Cursor) : Cursor := { c with unread := c.unread ++ extra }

variable {t : Table ι} {c c' : Cursor} {event : Event ι}

theorem meet_extend {next : Nat} {unread : List String} {d : Demand ι} (extra : List String)
    (h : (⟨next, unread, none⟩ : Cursor).meet d = (.ok (some event), c')) :
    (⟨next, unread ++ extra, none⟩ : Cursor).meet d = (.ok (some event), c'.extend extra) := by
  cases d with
  | deliver event run =>
    cases h
    rfl
  | await id name =>
    cases unread with
    | nil => cases h
    | cons arg unread =>
      cases h
      rfl

/-- **What a step delivers does not depend on later arguments.** -/
theorem step_extend (extra : List String) (h : c.step t = (.ok (some event), c')) :
    (c.extend extra).step t = (.ok (some event), c'.extend extra) := by
  obtain ⟨next, unread, _ | r⟩ := c
  · cases unread with
    | nil => cases h
    | cons token unread =>
      rw [step_cons] at h
      exact (step_cons t next token (unread ++ extra)).trans (meet_extend extra h)
  · rw [step_run] at h
    exact (step_run t next (unread ++ extra) r).trans (meet_extend extra h)

/-- So what was read stays read, even if the line ended on a missing value. -/
theorem events_stream_extend (t : Table ι) (extra : List String) (c : Cursor) :
    (c.stream t).events <+: ((c.extend extra).stream t).events := by
  fun_induction Cursor.stream t c with
  | case1 | case2 => exact List.nil_prefix
  | case3 c event hstep rest ih =>
    have hnext : c.step t = (.ok (some event), (c.step t).2) := Prod.ext hstep rfl
    rw [stream_of_step (step_extend extra hnext)]
    exact List.cons_prefix_cons.2 ⟨rfl, ih⟩

end Cursor

/-- **Two lines in a row read as the one and then the other.**  Let a line go on with a second one.

* What is read from the first line alone is still read first, whatever the second line holds.
* If the first line is read to its end, then what is read next is what is read from the second line
  alone, with every place as far on as the first line is long.  If the second line misses a value,
  so do the two. -/
theorem Table.read_line_append (t : Table ι) (a b : List String) {start : Nat}
    (hstart : start ≤ a.length) :
    (t.read a start).events <+: (t.read (a ++ b) start).events ∧
    ∀ events, t.read a start = ⟨events, none⟩ →
      t.read (a ++ b) start = .after events ((t.read b 0).shift a.length) := by
  have hread : t.read (a ++ b) start = ((Cursor.ofArgs a start).extend b).stream t := by
    show (Cursor.ofArgs (a ++ b) start).stream t = _
    rw [Cursor.ofArgs, List.drop_append_of_le_length hstart]
    rfl
  refine ⟨hread ▸ Cursor.events_stream_extend t b _, fun events h => ?_⟩
  have hpieces := (Table.read_eq_iff_pieces.1 h).stream b
  have hbehind : t.read (a ++ b) (0 + a.length) = (t.read b 0).shift a.length :=
    t.read_behind (by rw [Nat.zero_add, List.drop_left, List.drop_zero])
  have hlength : start + (a.drop start).length = 0 + a.length := by
    rw [List.length_drop]
    omega
  rw [← hbehind, hread]
  show (⟨start, a.drop start ++ b, none⟩ : Cursor).stream t =
    .after events (Cursor.stream t ⟨0 + a.length, (a ++ b).drop (0 + a.length), none⟩)
  rw [hpieces, hlength, Nat.zero_add, List.drop_left]

/-- `prlctl list -ao id` is read to its end, and `--sort=x -s` goes on from there, although it
misses a value itself. -/
theorem read_list_line_append :
    CommandTable.list.read (["prlctl", "list", "-ao", "id"] ++ ["--sort=x", "-s"]) 2 =
      ⟨[.option ⟨.setting (.mark .listAll), "-a", none⟩,
        .option ⟨.setting (.text .listFields), "-o", some ⟨"id", ⟨3, 0, 2⟩⟩⟩,
        .option ⟨.setting (.text .listSort), "--sort", some ⟨"x", ⟨4, 7, 8⟩⟩⟩], some ⟨"-s"⟩⟩ := by
  have hfirst : CommandTable.list.read ["prlctl", "list", "-ao", "id"] 2 =
      ⟨[.option ⟨.setting (.mark .listAll), "-a", none⟩,
        .option ⟨.setting (.text .listFields), "-o", some ⟨"id", ⟨3, 0, 2⟩⟩⟩], none⟩ :=
    Table.read_eq_of_streamWithin (n := 4) (by rfl)
  have hsecond : CommandTable.list.read ["--sort=x", "-s"] 0 =
      ⟨[.option ⟨.setting (.text .listSort), "--sort", some ⟨"x", ⟨0, 7, 8⟩⟩⟩], some ⟨"-s"⟩⟩ :=
    Table.read_eq_of_streamWithin (n := 4) (by rfl)
  rw [(CommandTable.list.read_line_append _ _ (by decide)).2 _ hfirst, hsecond]
  rfl

end VmControl.Options
