import VmControl.Proofs.Options.Pieces

/-!
# The bytes of a value

A value is wiped by the bytes that it was read from, so these have to be the value and nothing else.
An option stands in an argument, at its start or somewhere in a run.  If anything follows its name
there, that is the value, but for the `=` after a long name; else the value is the whole next
argument.  Either way the value goes to the end of an argument, and the next option with a value
has its value in a later one.

## Main definitions

* `Table.OptionAt`: an option of the table stands at a byte of an argument.
* `Value.Exact`: a value is what its slot holds, next to its option.

## Main statements

* `Cursor.option_step`: what a step delivers as an option stands where the cursor is.
* `Cursor.place_le_afterSteps`: a cursor does not go back.
* `Cursor.values_are_exact`: so each value is what its slot holds, and no two share an argument.
-/

namespace VmControl.Options

open VmControl.Text

variable {ι : Type}

/-! ## An option in an argument -/

/-- How an option stands in an argument.  `t.OptionAt arg offset e name front tail` says that the
entry `e` is the first one of the table for the option at the byte `offset` of `arg`, that the
option is spelled `name`, that `tail` follows it, and that a value in the same argument would come
after `front`. -/
inductive Table.OptionAt (t : Table ι) :
    String → Nat → Entry ι → String → String → String → Prop where
  /-- A long option takes the whole argument.  Its name ends before the first `=`. -/
  | long {name tail : String} {e : Entry ι} (he : t.findLong? name = some e)
      (hname : '=' ∉ name.toList)
      (htail : (tail = "" ∧ name ≠ "") ∨ ∃ value, tail = "=" ++ value) :
      OptionAt t ("--" ++ name ++ tail) 0 e ("--" ++ name) ("--" ++ name ++ "=") tail
  /-- A run starts after one dash. -/
  | short {c : Char} {tail : String} {e : Entry ι} (he : t.findShort? c = some e) (hc : c ≠ '-') :
      OptionAt t ("-" ++ String.singleton c ++ tail) 0 e ("-" ++ String.singleton c)
        ("-" ++ String.singleton c) tail
  /-- Or it goes on after the options that were read. -/
  | further {before : String} {c : Char} {tail : String} {e : Entry ι}
      (he : t.findShort? c = some e) (hbefore : before ≠ "") :
      OptionAt t (before ++ String.singleton c ++ tail) before.utf8ByteSize e
        ("-" ++ String.singleton c) (before ++ String.singleton c) tail

/-- The entry of an option is one of the table. -/
theorem Table.OptionAt.mem {t : Table ι} {arg name front tail : String} {offset : Nat} {e : Entry ι}
    (h : t.OptionAt arg offset e name front tail) : e ∈ t.entries := by
  cases h with
  | long he => exact List.mem_of_find?_eq_some he
  | short he => exact List.mem_of_find?_eq_some he
  | further he => exact List.mem_of_find?_eq_some he

/-- Whether a value is what its slot holds.  The value is that of an option in the argument at
`place`, with `tail` after its name there, and `front` before a value in the same argument. -/
structure Value.Exact (args : List String) (place : Nat) (front tail : String) (v : Value) :
    Prop where
  /-- The value is the end of an argument, from the first byte of the slot to the last. -/
  suffix : ∃ before : String, args[v.slot.index]? = some (before ++ v.text) ∧
    v.slot.start = before.utf8ByteSize ∧ v.slot.stop = (before ++ v.text).utf8ByteSize
  /-- The slot cuts no character, and holds the value. -/
  slice : v.slot.text? args = some v.text
  /-- It starts at the first byte exactly if it is the next argument, -/
  separate : v.slot.start = 0 ↔ v.slot.index = place + 1
  /-- which is so exactly if nothing follows the name. -/
  ending : v.slot.start = 0 ↔ tail = ""
  /-- Otherwise it starts after the `=`, or after the character of the option. -/
  inline : v.slot.start ≠ 0 → v.slot.index = place ∧ v.slot.start = front.utf8ByteSize

namespace Value

variable {args : List String} {place : Nat} {front text : String}

/-- A value is what its slot holds if that is the end of an argument. -/
theorem text?_of_suffix {index : Nat} (h : args[index]? = some (front ++ text)) :
    Slot.text? args ⟨index, front.utf8ByteSize, (front ++ text).utf8ByteSize⟩ = some text := by
  have hlist : (front ++ text).toList = front.toList ++ text.toList := String.toList_append
  have hsuffix := Slot.text?_suffix h hlist
  rwa [byteLength_toList, byteLength_toList, String.ofList_toList] at hsuffix

/-- The whole next argument is exact, as the value of an option with nothing after it. -/
theorem exact_separate (h : args[place + 1]? = some text) :
    (⟨text, ⟨place + 1, 0, text.utf8ByteSize⟩⟩ : Value).Exact args place front "" where
  suffix := ⟨"", by rwa [String.empty_append], rfl, by rw [String.empty_append]⟩
  slice := by
    have hwhole : args[place + 1]? = some ("" ++ text) := by rwa [String.empty_append]
    have hslice := text?_of_suffix hwhole
    rwa [String.empty_append] at hslice
  separate := by simp
  ending := by simp
  inline h := absurd rfl h

/-- What stands after an option in its argument is exact. -/
theorem exact_inline {tail : String} (h : args[place]? = some (front ++ text)) (hfront : front ≠ "")
    (htail : tail ≠ "") :
    (⟨text, ⟨place, front.utf8ByteSize, (front ++ text).utf8ByteSize⟩⟩ : Value).Exact args place
      front tail where
  suffix := ⟨front, h, rfl, rfl⟩
  slice := text?_of_suffix h
  separate := by simp [hfront]
  ending := by simp [hfront, htail]
  inline _ := ⟨rfl, rfl⟩

end Value

/-- Whether an option is read as it stands at a byte of the argument at `place`. -/
def Match.ReadAt (args : List String) (t : Table ι) (place : Nat) (arg : String) (offset : Nat)
    (m : Match ι) : Prop :=
  ∃ e front tail, t.OptionAt arg offset e m.name front tail ∧ m.id = e.id ∧
    m.value.isSome = e.takesValue ∧ ∀ v, m.value = some v → v.Exact args place front tail

/-! ## What an argument asks for -/

/-- Whether a demand is that of an option as it stands at a byte of the argument at `place`, if it
is that of an option. -/
def Demand.ReadAt (args : List String) (t : Table ι) (place : Nat) (arg : String) (offset : Nat) :
    Demand ι → Prop
  | .deliver (.option m) _ => m.ReadAt args t place arg offset
  | .deliver (.unknown _ _) _ => True
  | .await id name =>
    ∃ e front, t.OptionAt arg offset e name front "" ∧ id = e.id ∧ e.takesValue = true

namespace Demand

variable {args : List String} {t : Table ι} {place : Nat} {arg : String} {offset : Nat}
  {e : Entry ι} {name front tail : String}

theorem readAt_flag {r : Option Run} (h : t.OptionAt arg offset e name front tail)
    (hvalue : e.takesValue = false) :
    (Demand.deliver (.option ⟨e.id, name, none⟩) r).ReadAt args t place arg offset :=
  ⟨e, front, tail, h, rfl, hvalue.symm, nofun⟩

theorem readAt_inline {text : String} (h : t.OptionAt arg offset e name front tail)
    (hvalue : e.takesValue = true) (harg : args[place]? = some arg) (htext : arg = front ++ text)
    (hfront : front ≠ "") (htail : tail ≠ "") :
    (Demand.deliver (.option ⟨e.id, name, some ⟨text,
      ⟨place, front.utf8ByteSize, arg.utf8ByteSize⟩⟩⟩) none).ReadAt args t place arg offset := by
  subst htext
  refine ⟨e, front, tail, h, rfl, hvalue.symm, fun v hv => ?_⟩
  cases hv
  exact Value.exact_inline harg hfront htail

theorem readAt_ofLong {body : List Char} (harg : args[place]? = some arg)
    (htoken : arg.toList = '-' :: '-' :: body) (hbody : body ≠ []) :
    (ofLong t place arg body).ReadAt args t place arg 0 := by
  have harg' : arg = "--" ++ String.ofList body := by
    rw [← String.toList_inj, htoken]
    simp
  unfold ofLong
  cases hcut : cutFirst '=' body with
  | none =>
    have hname : '=' ∉ (String.ofList body).toList := by
      rw [String.toList_ofList]
      exact cutFirst_eq_none.1 hcut
    dsimp only
    split
    · trivial
    · next e he =>
      have hat : t.OptionAt arg 0 e ("--" ++ String.ofList body)
          ("--" ++ String.ofList body ++ "=") "" := by
        rw [show arg = "--" ++ String.ofList body ++ "" by rw [String.append_empty, harg']]
        exact .long he hname (.inl ⟨rfl, by simpa using hbody⟩)
      split
      · next hvalue => exact ⟨e, _, hat, rfl, hvalue⟩
      · next hvalue => exact readAt_flag hat (by simpa using hvalue)
  | some cut =>
    obtain ⟨name, value⟩ := cut
    obtain ⟨rfl, hname⟩ := cutFirst_eq_some.1 hcut
    have htext : arg = "--" ++ String.ofList name ++ "=" ++ String.ofList value := by
      rw [harg', ← String.toList_inj]
      simp
    dsimp only
    split
    · trivial
    · next e he =>
      have hat : t.OptionAt arg 0 e ("--" ++ String.ofList name)
          ("--" ++ String.ofList name ++ "=") ("=" ++ String.ofList value) := by
        rw [htext, String.append_assoc]
        exact .long he (by rwa [String.toList_ofList]) (.inr ⟨String.ofList value, rfl⟩)
      split
      · next hvalue =>
        have hstart : byteLength name + 3 = ("--" ++ String.ofList name ++ "=").utf8ByteSize := by
          rw [← byteLength_toList]
          simp only [String.toList_append, byteLength_append, String.toList_ofList]
          show byteLength name + 3 = 2 + byteLength name + 1
          omega
        rw [hstart, byteLength_toList]
        exact readAt_inline hat hvalue harg htext (by simp) (by simp)
      · next hvalue => exact readAt_flag hat (by simpa using hvalue)

/-- A run is read from the character that it has come to. -/
theorem readAt_ofRun {r : Run} {before : String} (harg : args[r.index]? = some r.token)
    (htoken : r.token = before ++ String.singleton r.head ++ String.ofList r.tail)
    (hoffset : before.utf8ByteSize = r.offset)
    (hat : ∀ e, t.findShort? r.head = some e →
      t.OptionAt r.token offset e ("-" ++ String.singleton r.head)
        (before ++ String.singleton r.head) (String.ofList r.tail)) :
    (ofRun t r).ReadAt args t r.index r.token offset := by
  cases he : t.findShort? r.head with
  | none =>
    rw [ofRun_of_none he]
    trivial
  | some e =>
    cases hvalue : e.takesValue with
    | false =>
      cases htail : r.tail with
      | nil =>
        rw [ofRun_last he hvalue htail]
        exact readAt_flag (hat e he) hvalue
      | cons head tail =>
        rw [ofRun_flag he hvalue htail]
        exact readAt_flag (hat e he) hvalue
    | true =>
      by_cases htail : r.tail = []
      · rw [ofRun_await he hvalue htail]
        refine ⟨e, before ++ String.singleton r.head, ?_, rfl, hvalue⟩
        have hend := hat e he
        rwa [htail] at hend
      · have hstart : r.offset + r.head.utf8Size =
            (before ++ String.singleton r.head).utf8ByteSize := by
          rw [← hoffset, ← byteLength_toList (before ++ _), ← byteLength_toList before]
          simp
        rw [ofRun_value he hvalue htail, hstart, byteLength_toList]
        exact readAt_inline (hat e he) hvalue harg htoken (by simp) (by simpa using htail)

/-- What an argument asks for is read at its start. -/
theorem readAt_ofToken (harg : args[place]? = some arg) :
    (ofToken t place arg).ReadAt args t place arg 0 := by
  by_cases hlong : ∃ body, arg.toList = '-' :: '-' :: body ∧ body ≠ []
  · obtain ⟨body, htoken, hbody⟩ := hlong
    rw [ofToken_body htoken hbody]
    exact readAt_ofLong harg htoken hbody
  by_cases hshort : ∃ head tail, arg.toList = '-' :: head :: tail ∧ head ≠ '-'
  · obtain ⟨head, tail, htoken, hhead⟩ := hshort
    rw [ofToken_short htoken hhead]
    have htext : arg = "-" ++ String.singleton head ++ String.ofList tail := by
      rw [← String.toList_inj, htoken]
      simp
    have hat (e : Entry ι) (he : t.findShort? head = some e) :
        t.OptionAt arg 0 e ("-" ++ String.singleton head) ("-" ++ String.singleton head)
          (String.ofList tail) := by
      rw [htext]
      exact .short he hhead
    exact readAt_ofRun harg htext rfl hat
  · -- What is left is no option.
    unfold ofToken
    split
    · trivial
    · next body hne htoken => exact absurd ⟨body, htoken, hne⟩ hlong
    · next head tail hne hdash htoken => exact absurd ⟨head, tail, htoken, hdash⟩ hshort
    · trivial

end Demand

/-! ## What a step delivers -/

namespace Cursor

variable {args : List String} {t : Table ι} {c c' : Cursor} {m : Match ι}

/-- The byte that the cursor is at in its argument. -/
def offset (c : Cursor) : Nat := c.run.elim 0 (·.offset)

theorem On.sound (h : c.On args) : c.Sound :=
  fun r hr => (h.run r hr).next ▸ Nat.lt_succ_self _

/-- An option is read as it stands if that is asked for: a value that is awaited is the argument
after that of the option. -/
theorem readAt_of_meet {place : Nat} {arg : String} {offset : Nat} {d : Demand ι}
    (hd : d.ReadAt args t place arg offset)
    (h : (⟨place + 1, args.drop (place + 1), none⟩ : Cursor).meet d =
      (.ok (some (.option m)), c')) :
    m.ReadAt args t place arg offset := by
  cases d with
  | deliver event r =>
    cases h
    exact hd
  | await id name =>
    obtain ⟨e, front, hat, rfl, hvalue⟩ := hd
    cases hnext : args[place + 1]? with
    | none =>
      rw [drop_of_getElem?_eq_none hnext] at h
      cases h
    | some text =>
      rw [drop_of_getElem? hnext] at h
      cases h
      refine ⟨e, front, "", hat, rfl, hvalue.symm, fun v hv => ?_⟩
      cases hv
      rw [byteLength_toList]
      exact Value.exact_separate hnext

/-- **What a step delivers as an option stands where the cursor is.** -/
theorem option_step (hc : c.On args) (h : c.step t = (.ok (some (.option m)), c')) :
    ∃ arg, args[c.place]? = some arg ∧ m.ReadAt args t c.place arg c.offset := by
  obtain ⟨next, unread, _ | r⟩ := c
  · obtain rfl : unread = args.drop next := hc.unread
    cases harg : args[next]? with
    | none =>
      rw [drop_of_getElem?_eq_none harg] at h
      cases h
    | some arg =>
      rw [drop_of_getElem? harg, step_cons] at h
      exact ⟨arg, harg, readAt_of_meet (Demand.readAt_ofToken harg) h⟩
  · obtain rfl : unread = args.drop next := hc.unread
    obtain ⟨hnext, harg, ⟨front, hrest, hfront⟩, hoffset⟩ := hc.run r rfl
    dsimp only at hnext
    subst hnext
    have htext : r.token =
        String.ofList front ++ String.singleton r.head ++ String.ofList r.tail := by
      rw [← String.toList_inj, hrest]
      simp
    have hsize : (String.ofList front).utf8ByteSize = r.offset := by
      rw [← byteLength_toList, String.toList_ofList, hfront]
    have hne : String.ofList front ≠ "" := by
      intro hempty
      rw [hempty, String.utf8ByteSize_empty] at hsize
      omega
    have hat (e : Entry ι) (he : t.findShort? r.head = some e) :
        t.OptionAt r.token r.offset e ("-" ++ String.singleton r.head)
          (String.ofList front ++ String.singleton r.head) (String.ofList r.tail) := by
      rw [htext, ← hsize]
      exact .further he hne
    rw [step_run] at h
    exact ⟨r.token, harg, readAt_of_meet (Demand.readAt_ofRun harg htext hsize hat) h⟩

/-- So does each option that a cursor delivers. -/
theorem readAt_of_mem_stream (hc : c.On args) (hm : .option m ∈ (c.stream t).events) :
    ∃ place arg offset, args[place]? = some arg ∧ m.ReadAt args t place arg offset := by
  fun_induction Cursor.stream t c with
  | case1 | case2 => cases hm
  | case3 c event hstep rest =>
    rename_i ih
    rcases List.mem_cons.1 hm with rfl | hm
    · obtain ⟨arg, harg, hread⟩ := option_step hc (Prod.ext hstep rfl)
      exact ⟨c.place, arg, c.offset, harg, hread⟩
    · exact ih (hc.step t) hm

/-! ## Going on -/

theorem run_of_missing {u : MissingValue} (h : c.step t = (.error u, c')) : c'.run = none := by
  have hmeet {next : Nat} {unread : List String} {d : Demand ι}
      (h : (⟨next, unread, none⟩ : Cursor).meet d = (.error u, c')) : c'.run = none := by
    cases d with
    | deliver event r => cases h
    | await id name => cases unread <;> cases h; rfl
  obtain ⟨next, unread, _ | r⟩ := c
  · cases unread with
    | nil => cases h
    | cons token unread => exact hmeet ((step_cons t next token unread).symm.trans h)
  · exact hmeet ((step_run t next unread r).symm.trans h)

/-- A step does not go back, whether it delivers anything or not. -/
theorem place_le_step (hc : c.Sound) : c.place ≤ (c.step t).2.place := by
  cases hout : (c.step t).1 with
  | error u =>
    have hrun := run_of_missing (Prod.ext hout rfl : c.step t = (.error u, (c.step t).2))
    have hplace : (c.step t).2.place = (c.step t).2.next := by rw [place, hrun]
    rw [hplace]
    exact Nat.le_trans (place_le_next hc) (next_le_step t c)
  | ok event =>
    cases event with
    | none =>
      have hstay := step_of_unreadSize_eq_zero (step_eq_done.1 hout) t
      exact Nat.le_of_eq (congrArg place hstay.symm)
    | some event => exact (step_place hc (Prod.ext hout rfl)).2.1

/-- **A cursor does not go back.** -/
theorem place_le_afterSteps {tables : Nat → Table ι} (hc : c.On args) {k n : Nat} (h : k ≤ n) :
    (c.afterSteps tables k).place ≤ (c.afterSteps tables n).place := by
  induction n with
  | zero =>
    obtain rfl := Nat.le_zero.1 h
    exact Nat.le_refl _
  | succ n ih =>
    rcases Nat.lt_or_eq_of_le h with hlt | rfl
    · exact Nat.le_trans (ih (Nat.le_of_lt_succ hlt)) (place_le_step (hc.afterSteps n).sound)
    · exact Nat.le_refl _

/-- **Each value is what its slot holds, and no two share an argument**, whatever table each step
goes by, and even if steps before missed a value.  Let step `n` deliver an option.

* It stands at the byte of the argument that the cursor is at, its id is that of the first entry of
  its name, and it has a value, and with it a slot, exactly if that entry takes one.
* The value is the end of an argument, and the slot is its bytes there.  It starts at the first byte
  exactly if it is the whole next argument, which is so exactly if nothing follows the name of the
  option; otherwise it starts after the `=`, or after the character of the option.
* It is in a later argument than the value of any option that an earlier step delivered. -/
theorem values_are_exact (args : List String) (start : Nat) (tables : Nat → Table ι) (n : Nat)
    (m : Match ι) :
    let c := (ofArgs args start).afterSteps tables
    ((c n).step (tables n)).1 = .ok (some (.option m)) →
    ∃ arg e front tail, args[(c n).place]? = some arg ∧
      (tables n).OptionAt arg (c n).offset e m.name front tail ∧ m.id = e.id ∧
      m.value.isSome = e.takesValue ∧ m.slot?.isSome = e.takesValue ∧
      ∀ v, m.value = some v → v.Exact args (c n).place front tail ∧
        ∀ k < n, ∀ m' v', ((c k).step (tables k)).1 = .ok (some (.option m')) →
          m'.value = some v' → v'.slot.index < v.slot.index := by
  intro c hm
  have hon (n : Nat) : (c n).On args := (on_ofArgs args start).afterSteps n
  have hplace {n : Nat} {m : Match ι} {v : Value} (hv : m.value = some v)
      (h : ((c n).step (tables n)).1 = .ok (some (.option m))) :
      (c n).place ≤ v.slot.index ∧ v.slot.index < (c (n + 1)).place :=
    (step_place (hon n).sound (Prod.ext h rfl)).2.2 v.slot.index
      (by simp [Event.index?, Match.slot?, hv])
  obtain ⟨arg, harg, e, front, tail, hat, hid, hsome, hexact⟩ :=
    option_step (hon n) (Prod.ext hm rfl)
  refine ⟨arg, e, front, tail, harg, hat, hid, hsome, ?_, fun v hv => ⟨hexact v hv, ?_⟩⟩
  · rw [Match.slot?, Option.isSome_map, hsome]
  · intro k hk m' v' hm' hv'
    have hbefore := (hplace hv' hm').2
    have hbetween : (c (k + 1)).place ≤ (c n).place := place_le_afterSteps (on_ofArgs args start) hk
    have hafter := (hplace hv hm).1
    exact Nat.lt_of_lt_of_le hbefore (Nat.le_trans hbetween hafter)

/-- In `prlctl list -ao€` the run comes to the value of `--output` in its second step, at the byte
after the `o`. -/
theorem list_run_value_is_exact :
    ∃ arg e front tail, ["prlctl", "list", "-ao€"][2]? = some arg ∧
      CommandTable.list.OptionAt arg 2 e "-o" front tail ∧ e.takesValue = true ∧
      (⟨"€", ⟨2, 3, 6⟩⟩ : Value).Exact ["prlctl", "list", "-ao€"] 2 front tail := by
  obtain ⟨arg, e, front, tail, harg, hat, -, hsome, -, hvalue⟩ :=
    values_are_exact ["prlctl", "list", "-ao€"] 2 (fun _ => CommandTable.list) 1
      ⟨.setting (.text .listFields), "-o", some ⟨"€", ⟨2, 3, 6⟩⟩⟩ rfl
  exact ⟨arg, e, front, tail, harg, hat, hsome.symm, (hvalue _ rfl).1⟩

end Cursor

end VmControl.Options
