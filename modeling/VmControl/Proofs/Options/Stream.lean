import VmControl.Options.Cursor

/-!
# What a cursor delivers

## Main statements

* `Table.has_of_mem_read`: the options of a stream are options of its table.
-/

namespace VmControl.Options

variable {ι : Type}

namespace Stream

/-- The stream of a line without options. -/
def empty : Stream ι := ⟨[], none⟩

instance : EmptyCollection (Stream ι) := ⟨empty⟩

/-- The options of a stream, in order. -/
def options (s : Stream ι) : List (Match ι) :=
  s.events.filterMap fun
    | .option m => some m
    | .unknown _ _ => none

theorem mem_options {s : Stream ι} {m : Match ι} : m ∈ s.options ↔ .option m ∈ s.events := by
  unfold options
  rw [List.mem_filterMap]
  constructor
  · rintro ⟨event, hevent, h⟩
    cases event with
    | option m' => cases h; exact hevent
    | unknown index token => cases h
  · exact fun h => ⟨_, h, rfl⟩

end Stream

/-- Whether the table has an option of this meaning. -/
def Table.Has (t : Table ι) (id : ι) : Prop := ∃ e ∈ t.entries, e.id = id

theorem Table.has_of_findLong? {t : Table ι} {name : String} {e : Entry ι}
    (h : t.findLong? name = some e) : t.Has e.id :=
  ⟨e, List.mem_of_find?_eq_some h, rfl⟩

theorem Table.has_of_findShort? {t : Table ι} {c : Char} {e : Entry ι}
    (h : t.findShort? c = some e) : t.Has e.id :=
  ⟨e, List.mem_of_find?_eq_some h, rfl⟩

namespace Cursor

variable {c : Cursor} {t : Table ι} {m : Match ι}

theorem takeNext_id {id : ι} {name : String}
    (h : (c.takeNext id name).1 = .ok (some (.option m))) : m.id = id := by
  unfold takeNext at h
  split at h <;> cases h
  rfl

theorem readLong_has {index : Nat} {token : String} {body : List Char}
    (h : (c.readLong t index token body).1 = .ok (some (.option m))) : t.Has m.id := by
  simp only [readLong] at h
  split at h
  · cases h
  · next e he =>
      have hhas := Table.has_of_findLong? he
      split at h
      · split at h
        · cases h; exact hhas
        · rw [takeNext_id h]; exact hhas
      · cases h; exact hhas

theorem readShort_has {r : Run} (h : (c.readShort t r).1 = .ok (some (.option m))) :
    t.Has m.id := by
  simp only [readShort] at h
  split at h
  · cases h
  · next e he =>
      have hhas := Table.has_of_findShort? he
      split at h
      · rw [takeNext_id h]; exact hhas
      all_goals cases h; exact hhas

theorem step_has (h : (c.step t).1 = .ok (some (.option m))) : t.Has m.id := by
  unfold step at h
  split at h
  · exact readShort_has h
  · split at h
    · cases h
    · dsimp only at h
      split at h
      · cases h
      · exact readLong_has h
      · exact readShort_has h
      · cases h

/-- The stream of a cursor that comes to its end within `n` steps. -/
def streamWithin (c : Cursor) (t : Table ι) : Nat → Option (Stream ι)
  | 0 => none
  | n + 1 =>
    match c.step t with
    | (.error u, _) => some ⟨[], some u⟩
    | (.ok none, _) => some ⟨[], none⟩
    | (.ok (some event), c) =>
      (streamWithin c t n).map fun rest => { rest with events := event :: rest.events }

theorem stream_eq_of_streamWithin {n : Nat} {s : Stream ι} (h : streamWithin c t n = some s) :
    c.stream t = s := by
  induction n generalizing c s with
  | zero => cases h
  | succ n ih =>
    rw [streamWithin] at h
    rw [stream]
    rcases hs : c.step t with ⟨u | _ | event, c'⟩ <;> rw [hs] at h <;> dsimp only at h ⊢
    · exact Option.some.inj h
    · exact Option.some.inj h
    · obtain ⟨rest, hrest, rfl⟩ := Option.map_eq_some_iff.1 h
      rw [ih hrest]

theorem stream_has (h : .option m ∈ (c.stream t).events) : t.Has m.id := by
  fun_induction Cursor.stream t c with
  | case1 | case2 => cases h
  | case3 c event hstep rest ih =>
    rcases List.mem_cons.1 h with rfl | h
    · exact step_has hstep
    · exact ih h

end Cursor

/-- **The options of a stream are options of its table.** -/
theorem Table.has_of_mem_read {t : Table ι} {args : List String} {start : Nat} {m : Match ι}
    (h : .option m ∈ (t.read args start).events) : t.Has m.id :=
  Cursor.stream_has h

theorem Table.read_eq_of_streamWithin {t : Table ι} {args : List String} {start n : Nat}
    {s : Stream ι} (h : (Cursor.ofArgs args start).streamWithin t n = some s) :
    t.read args start = s :=
  Cursor.stream_eq_of_streamWithin h

/-! ## Options by themselves -/

/-- An option as it is said, wherever it stands. -/
structure Occurrence (ι : Type) where
  /-- The id that the table gives it. -/
  id : ι
  /-- The option as it was spelled. -/
  name : String
  /-- The value, if the option takes one. -/
  value : Option String
  deriving DecidableEq, Repr

/-- The option without its place. -/
def Match.occurrence (m : Match ι) : Occurrence ι := ⟨m.id, m.name, m.value.map (·.text)⟩

/-- The option at the start of a line, where no option stands. -/
def Occurrence.toMatch (o : Occurrence ι) : Match ι :=
  ⟨o.id, o.name, o.value.map fun text => ⟨text, ⟨0, 0, 0⟩⟩⟩

theorem Match.toMatch_occurrence_text (m : Match ι) : m.occurrence.toMatch.text = m.text := by
  obtain ⟨id, name, _ | v⟩ := m <;> rfl

/-- Whether a line consists of these options. -/
def Stream.Says (s : Stream ι) (os : List (Occurrence ι)) : Prop :=
  ∃ ms : List (Match ι), s = ⟨ms.map .option, none⟩ ∧ ms.map Match.occurrence = os

theorem Table.has_of_says {t : Table ι} {args : List String} {start : Nat}
    {os : List (Occurrence ι)} (h : (t.read args start).Says os) {o : Occurrence ι} (ho : o ∈ os) :
    t.Has o.id := by
  obtain ⟨ms, hread, rfl⟩ := h
  obtain ⟨m, hm, rfl⟩ := List.mem_map.1 ho
  have hmem : .option m ∈ (t.read args start).events := by
    rw [hread]
    exact List.mem_map_of_mem hm
  exact Table.has_of_mem_read hmem

end VmControl.Options
