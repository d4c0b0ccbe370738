import VmControl.Proofs.Options.Stream

/-!
# Where values stand

What a cursor makes of an argument depends on the argument alone, unless the argument ends on an
option whose value is the next one.  So a step first finds out what its argument asks for, and then
meets that demand.  It follows that what a stream delivers stands in order on the line, and that a
value is the end of its argument.

## Main statements

* `Cursor.step_cons`: a step meets the demand of its argument.
* `Cursor.stream_sorted`: what a stream delivers stands in order.
* `Cursor.suffix_of_mem_stream`: a value in a run is the end of the run.
-/

namespace VmControl.Options

open VmControl.Text

variable {ι : Type}

/-! ## Demands -/

/-- What an argument, or the rest of a run, asks for. -/
inductive Demand (ι : Type) where
  /-- Nothing: it delivers an event by itself, and may leave a run to be read. -/
  | deliver (event : Event ι) (run : Option Run)
  /-- The next argument, as the value of an option. -/
  | await (id : ι) (name : String)

namespace Demand

/-- What a long option asks for. -/
def ofLong (t : Table ι) (index : Nat) (token : String) (body : List Char) : Demand ι :=
  let (name, inline) := match cutFirst '=' body with
    | some (name, value) => (name, some value)
    | none => (body, none)
  match t.findLong? (String.ofList name) with
  | none => .deliver (.unknown index token) none
  | some e =>
    let spelled := "--" ++ String.ofList name
    if e.takesValue then
      match inline with
      | some value =>
        let slot := ⟨index, byteLength name + 3, byteLength token.toList⟩
        .deliver (.option ⟨e.id, spelled, some ⟨String.ofList value, slot⟩⟩) none
      | none => .await e.id spelled
    else .deliver (.option ⟨e.id, spelled, none⟩) none

/-- What a run of short options asks for. -/
def ofRun (t : Table ι) (r : Run) : Demand ι :=
  match t.findShort? r.head with
  | none => .deliver (.unknown r.index r.token) none
  | some e =>
    let spelled := "-" ++ String.singleton r.head
    let offset := r.offset + r.head.utf8Size
    match e.takesValue, r.tail with
    | true, [] => .await e.id spelled
    | true, tail =>
      let slot := ⟨r.index, offset, byteLength r.token.toList⟩
      .deliver (.option ⟨e.id, spelled, some ⟨String.ofList tail, slot⟩⟩) none
    | false, [] => .deliver (.option ⟨e.id, spelled, none⟩) none
    | false, head :: tail =>
      .deliver (.option ⟨e.id, spelled, none⟩)
        (some { r with offset := offset, head := head, tail := tail })

section Run

variable {t : Table ι} {r : Run} {e : Entry ι}

theorem ofRun_of_none (he : t.findShort? r.head = none) :
    ofRun t r = .deliver (.unknown r.index r.token) none := by
  simp [ofRun, he]

theorem ofRun_await (he : t.findShort? r.head = some e) (hvalue : e.takesValue = true)
    (htail : r.tail = []) : ofRun t r = .await e.id ("-" ++ String.singleton r.head) := by
  simp [ofRun, he, hvalue, htail]

theorem ofRun_value (he : t.findShort? r.head = some e) (hvalue : e.takesValue = true)
    (htail : r.tail ≠ []) :
    ofRun t r = .deliver (.option ⟨e.id, "-" ++ String.singleton r.head,
      some ⟨String.ofList r.tail,
        ⟨r.index, r.offset + r.head.utf8Size, byteLength r.token.toList⟩⟩⟩) none := by
  cases h : r.tail with
  | nil => exact absurd h htail
  | cons head tail => simp [ofRun, he, hvalue, h]

theorem ofRun_last (he : t.findShort? r.head = some e) (hvalue : e.takesValue = false)
    (htail : r.tail = []) :
    ofRun t r = .deliver (.option ⟨e.id, "-" ++ String.singleton r.head, none⟩) none := by
  simp [ofRun, he, hvalue, htail]

theorem ofRun_flag (he : t.findShort? r.head = some e) (hvalue : e.takesValue = false)
    {head : Char} {tail : List Char} (htail : r.tail = head :: tail) :
    ofRun t r = .deliver (.option ⟨e.id, "-" ++ String.singleton r.head, none⟩)
      (some ⟨r.index, r.token, r.offset + r.head.utf8Size, head, tail⟩) := by
  simp [ofRun, he, hvalue, htail]

end Run

/-- What an argument asks for. -/
def ofToken (t : Table ι) (index : Nat) (token : String) : Demand ι :=
  match token.toList with
  | ['-', '-'] => .deliver (.unknown index token) none
  | '-' :: '-' :: body => ofLong t index token body
  | '-' :: head :: tail => ofRun t ⟨index, token, 1, head, tail⟩
  | _ => .deliver (.unknown index token) none

end Demand

namespace Cursor

/-- Meets a demand. -/
def meet (c : Cursor) : Demand ι → Except MissingValue (Option (Event ι)) × Cursor
  | .deliver event run => (.ok (some event), { c with run := run })
  | .await id name => c.takeNext id name

theorem readLong_eq_meet (t : Table ι) (next index : Nat) (unread : List String) (token : String)
    (body : List Char) :
    (⟨next, unread, none⟩ : Cursor).readLong t index token body =
      (⟨next, unread, none⟩ : Cursor).meet (.ofLong t index token body) := by
  unfold readLong Demand.ofLong
  dsimp only
  cases cutFirst '=' body with
  | none =>
    dsimp only
    cases t.findLong? (String.ofList body) with
    | none => rfl
    | some e => cases h : e.takesValue <;> simp [h, meet]
  | some cut =>
    dsimp only
    cases t.findLong? (String.ofList cut.1) with
    | none => rfl
    | some e => cases h : e.takesValue <;> simp [h, meet]

theorem readShort_eq_meet (t : Table ι) (next : Nat) (unread : List String) (r : Run) :
    (⟨next, unread, none⟩ : Cursor).readShort t r =
      (⟨next, unread, none⟩ : Cursor).meet (.ofRun t r) := by
  unfold readShort Demand.ofRun
  cases t.findShort? r.head with
  | none => rfl
  | some e =>
    dsimp only
    cases e.takesValue <;> cases r.tail <;> rfl

/-- **A step meets the demand of its argument.** -/
theorem step_cons (t : Table ι) (next : Nat) (token : String) (unread : List String) :
    (⟨next, token :: unread, none⟩ : Cursor).step t =
      (⟨next + 1, unread, none⟩ : Cursor).meet (.ofToken t next token) := by
  unfold step Demand.ofToken
  dsimp only
  generalize token.toList = chars
  rcases chars with _ | ⟨first, _ | ⟨second, rest⟩⟩
  · rfl
  · by_cases hfirst : first = '-'
    · subst hfirst
      rfl
    · simp [meet]
  · by_cases hfirst : first = '-'
    · subst hfirst
      by_cases hsecond : second = '-'
      · subst hsecond
        cases rest with
        | nil => rfl
        | cons c body => exact readLong_eq_meet ..
      · simp [hsecond, readShort_eq_meet]
    · simp [hfirst, meet]

/-- So it does with the run that was left unfinished. -/
theorem step_run (t : Table ι) (next : Nat) (unread : List String) (r : Run) :
    (⟨next, unread, some r⟩ : Cursor).step t =
      (⟨next, unread, none⟩ : Cursor).meet (.ofRun t r) :=
  readShort_eq_meet t next unread r

end Cursor

/-! ## The order of a line -/

/-- The argument that holds what is delivered: the value of an option, or the unknown argument. -/
def Event.index? : Event ι → Option Nat
  | .option m => m.slot?.map (·.index)
  | .unknown index _ => some index

/-- Whether what a demand delivers and leaves stands in the argument at `index`. -/
def Demand.Within (index : Nat) : Demand ι → Prop
  | .deliver event run =>
    (∀ i, event.index? = some i → i = index ∧ run = none) ∧ ∀ r, run = some r → r.index = index
  | .await _ _ => True

theorem Demand.ofRun_within (t : Table ι) (r : Run) : (ofRun t r).Within r.index := by
  unfold ofRun
  split
  · simp [Within, Event.index?]
  · dsimp only
    split <;> simp [Within, Event.index?, Match.slot?]

theorem Demand.ofToken_within (t : Table ι) (index : Nat) (token : String) :
    (ofToken t index token).Within index := by
  unfold ofToken
  split
  · simp [Within, Event.index?]
  · unfold ofLong
    dsimp only
    split
    · simp [Within, Event.index?]
    · split
      · split <;> simp [Within, Event.index?, Match.slot?]
      · simp [Within, Event.index?, Match.slot?]
  · exact ofRun_within t _
  · simp [Within, Event.index?]

namespace Cursor

/-- The argument that the cursor is at: that of the unfinished run, or else the next one. -/
def place (c : Cursor) : Nat :=
  match c.run with
  | some r => r.index
  | none => c.next

/-- Whether the unfinished run is in an argument that was read. -/
def Sound (c : Cursor) : Prop := ∀ r, c.run = some r → r.index < c.next

theorem sound_of_run_eq_none {c : Cursor} (h : c.run = none) : c.Sound := by
  simp [Sound, h]

theorem place_le_next {c : Cursor} (hc : c.Sound) : c.place ≤ c.next := by
  obtain ⟨next, unread, _ | r⟩ := c
  · exact Nat.le_refl next
  · exact Nat.le_of_lt (hc r rfl)

theorem meet_place {next : Nat} {unread : List String} {c' : Cursor} {d : Demand ι}
    {event : Event ι} {index : Nat} (hindex : index < next) (hd : d.Within index)
    (h : (⟨next, unread, none⟩ : Cursor).meet d = (.ok (some event), c')) :
    c'.Sound ∧ index ≤ c'.place ∧ ∀ i, event.index? = some i → index ≤ i ∧ i < c'.place := by
  cases d with
  | deliver event run =>
    cases h
    refine ⟨fun r hr => ?_, ?_, fun i hi => ?_⟩
    · rw [hd.2 r hr]
      exact hindex
    · cases run with
      | none => exact Nat.le_of_lt hindex
      | some r => exact Nat.le_of_eq (hd.2 r rfl).symm
    · obtain ⟨rfl, rfl⟩ := hd.1 i hi
      exact ⟨Nat.le_refl _, hindex⟩
  | await id name =>
    simp only [meet, takeNext] at h
    split at h <;> cases h
    refine ⟨sound_of_run_eq_none rfl, ?_, fun i hi => ?_⟩ <;> dsimp only [place]
    · omega
    · obtain rfl : next = i := Option.some.inj hi
      omega

/-- A step delivers from where the cursor is, and goes on. -/
theorem step_place {t : Table ι} {c c' : Cursor} {event : Event ι} (hc : c.Sound)
    (h : c.step t = (.ok (some event), c')) :
    c'.Sound ∧ c.place ≤ c'.place ∧ ∀ i, event.index? = some i → c.place ≤ i ∧ i < c'.place := by
  obtain ⟨next, unread, _ | r⟩ := c
  · cases unread with
    | nil => cases h
    | cons token unread =>
      rw [step_cons] at h
      exact meet_place (Nat.lt_succ_self next) (Demand.ofToken_within t next token) h
  · rw [step_run] at h
    exact meet_place (hc r rfl) (Demand.ofRun_within t r) h

/-- **What a stream delivers stands in order**, from where the cursor is. -/
theorem stream_sorted {t : Table ι} {c : Cursor} (hc : c.Sound) :
    ((c.stream t).events.filterMap Event.index?).Pairwise (· < ·) ∧
      ∀ event ∈ (c.stream t).events, ∀ i, event.index? = some i → c.place ≤ i := by
  fun_induction Cursor.stream t c with
  | case1 | case2 => simp
  | case3 c event hstep rest ih =>
    have hnext : c.step t = (.ok (some event), (c.step t).2) := Prod.ext hstep rfl
    obtain ⟨hsound, hplace, hevent⟩ := step_place hc hnext
    obtain ⟨hsorted, hrest⟩ := ih hsound
    refine ⟨?_, fun e he i hi => ?_⟩
    · rw [List.filterMap_cons]
      split
      · exact hsorted
      · next i hi =>
        refine List.pairwise_cons.2 ⟨fun j hj => ?_, hsorted⟩
        obtain ⟨e, he, hj⟩ := List.mem_filterMap.1 hj
        have := (hevent i hi).2
        have := hrest e he j hj
        omega
    · rcases List.mem_cons.1 he with rfl | he
      · exact (hevent i hi).1
      · exact Nat.le_trans hplace (hrest e he i hi)

/-! ## Values that end an argument -/

section

variable {t : Table ι} {c c' : Cursor}

theorem stream_of_missing {u : MissingValue} (h : c.step t = (.error u, c')) :
    c.stream t = ⟨[], some u⟩ := by
  rw [stream]
  split <;> simp_all

theorem stream_of_done (h : c.step t = (.ok none, c')) : c.stream t = ⟨[], none⟩ := by
  rw [stream]
  split <;> simp_all

theorem stream_of_step {event : Event ι} (h : c.step t = (.ok (some event), c')) :
    c.stream t = ⟨event :: (c'.stream t).events, (c'.stream t).missing⟩ := by
  rw [stream]
  split <;> simp_all

end

theorem exists_step_of_mem_stream {t : Table ι} {c : Cursor} {event : Event ι}
    (h : event ∈ (c.stream t).events) : ∃ event' c', c.step t = (.ok (some event'), c') := by
  rw [stream] at h
  split at h
  · cases h
  · cases h
  · next event' he => exact ⟨event', _, Prod.ext he rfl⟩

/-- An option of a stream is what the next step delivers, or stands where the cursor is then. -/
theorem mem_stream_of_step {t : Table ι} {c c' : Cursor} {event : Event ι} {m : Match ι} {v : Value}
    (hc : c.Sound) (h : c.step t = (.ok (some event), c')) (hv : m.value = some v)
    (hm : .option m ∈ (c.stream t).events) :
    event = .option m ∨ (.option m ∈ (c'.stream t).events ∧ c'.place ≤ v.slot.index) := by
  rw [stream_of_step h] at hm
  rcases List.mem_cons.1 hm with hm | hm
  · exact .inl hm.symm
  · have hplace := (stream_sorted (step_place hc h).1).2 _ hm v.slot.index
    exact .inr ⟨hm, hplace (by simp [Event.index?, Match.slot?, hv])⟩

/-- An option with a value in a run either has all the rest of the run as its value, or comes after
an option without a value. -/
theorem meet_ofRun {t : Table ι} {next : Nat} {unread : List String} {c' : Cursor} {r : Run}
    {event : Event ι} {m : Match ι} {v : Value} (hindex : r.index < next)
    (h : (⟨next, unread, none⟩ : Cursor).meet (.ofRun t r) = (.ok (some event), c'))
    (hm : event = .option m ∨ (.option m ∈ (c'.stream t).events ∧ c'.place ≤ v.slot.index))
    (hv : m.value = some v) (hi : v.slot.index = r.index) :
    ∃ e, t.findShort? r.head = some e ∧
      ((e.takesValue = true ∧ r.tail ≠ [] ∧ r.tail = v.text.toList ∧ m.id = e.id) ∨
        (e.takesValue = false ∧ ∃ r', c'.run = some r' ∧ r'.index = r.index ∧
          r.tail = r'.head :: r'.tail ∧ .option m ∈ (c'.stream t).events)) := by
  have hdone (hlt : r.index < c'.place) : event = .option m := by
    rcases hm with hm | ⟨-, hplace⟩
    · exact hm
    · omega
  cases he : t.findShort? r.head with
  | none =>
    rw [Demand.ofRun_of_none he] at h
    cases h
    cases hdone hindex
  | some e =>
    refine ⟨e, rfl, ?_⟩
    cases hvalue : e.takesValue with
    | false =>
      cases htail : r.tail with
      | nil =>
        rw [Demand.ofRun_last he hvalue htail] at h
        cases h
        cases hdone hindex
        cases hv
      | cons head tail =>
        rw [Demand.ofRun_flag he hvalue htail] at h
        cases h
        rcases hm with hm | ⟨hm, -⟩
        · cases hm
          cases hv
        · exact .inr ⟨rfl, _, rfl, rfl, rfl, hm⟩
    | true =>
      by_cases htail : r.tail = []
      · rw [Demand.ofRun_await he hvalue htail] at h
        cases unread with
        | nil => cases h
        | cons arg unread =>
          cases h
          cases hdone (Nat.lt_succ_of_lt hindex)
          cases hv
          exact absurd hi (Nat.ne_of_gt hindex)
      · rw [Demand.ofRun_value he hvalue htail] at h
        cases h
        cases hdone hindex
        cases hv
        exact .inl ⟨rfl, htail, by simp, rfl⟩

/-- **A value in a run is the end of the run.** -/
theorem suffix_of_mem_stream {t : Table ι} {c : Cursor} {r : Run} {m : Match ι} {v : Value}
    (hc : c.Sound) (hr : c.run = some r) (hm : .option m ∈ (c.stream t).events)
    (hv : m.value = some v) (hi : v.slot.index = r.index) :
    ∃ front, r.tail = front ++ v.text.toList := by
  fun_induction Cursor.stream t c generalizing r with
  | case1 | case2 => cases hm
  | case3 c event hstep rest =>
    rename_i ih
    obtain ⟨c', hc'⟩ : ∃ c', c.step t = (.ok (some event), c') := ⟨_, Prod.ext hstep rfl⟩
    have hrest : (c.step t).2 = c' := by rw [hc']
    rw [hrest] at ih
    obtain ⟨next, unread, run⟩ := c
    cases hr
    have hmem := mem_stream_of_step hc hc' hv (by rw [stream_of_step hc', ← hrest]; exact hm)
    obtain ⟨e, -, ⟨-, -, htail, -⟩ | ⟨-, r', hr', hindex, htail, hm⟩⟩ :=
      meet_ofRun (hc r rfl) (step_run t next unread r ▸ hc') hmem hv hi
    · exact ⟨[], htail⟩
    · obtain ⟨front, hfront⟩ := ih (step_place hc hc').1 hr' hm (hi.trans hindex.symm)
      exact ⟨r'.head :: front, by rw [htail, hfront]; rfl⟩

/-- So is a value in a run that a step reads from. -/
theorem run_of_mem_stream {t : Table ι} {next : Nat} {unread : List String} {c : Cursor} {r : Run}
    {m : Match ι} {v : Value} (hc : c.Sound) (hindex : r.index < next)
    (hstep : c.step t = (⟨next, unread, none⟩ : Cursor).meet (.ofRun t r))
    (hm : .option m ∈ (c.stream t).events) (hv : m.value = some v) (hi : v.slot.index = r.index) :
    ∃ e, t.findShort? r.head = some e ∧
      ((e.takesValue = true ∧ r.tail ≠ [] ∧ r.tail = v.text.toList ∧ m.id = e.id) ∨
        (e.takesValue = false ∧ ∃ head front, r.tail = head :: (front ++ v.text.toList))) := by
  obtain ⟨event, c', hc'⟩ := exists_step_of_mem_stream hm
  obtain ⟨e, he, h | ⟨hvalue, r', hr', hindex', htail, hm⟩⟩ :=
    meet_ofRun hindex (hstep ▸ hc') (mem_stream_of_step hc hc' hv hm) hv hi
  · exact ⟨e, he, .inl h⟩
  · obtain ⟨front, hfront⟩ :=
      suffix_of_mem_stream (step_place hc hc').1 hr' hm hv (hi.trans hindex'.symm)
    exact ⟨e, he, .inr ⟨hvalue, r'.head, front, by rw [htail, hfront]⟩⟩

end Cursor

namespace Demand

/-- A long option with its value. -/
theorem ofToken_long {t : Table ι} {index : Nat} {token : String} {name value : List Char}
    {e : Entry ι} (htoken : token.toList = '-' :: '-' :: (name ++ '=' :: value))
    (hname : '=' ∉ name)
    (he : t.findLong? (String.ofList name) = some e) (hvalue : e.takesValue = true) :
    ofToken t index token = .deliver (.option ⟨e.id, "--" ++ String.ofList name,
      some ⟨String.ofList value, ⟨index, byteLength name + 3, byteLength token.toList⟩⟩⟩) none := by
  have hcut : cutFirst '=' (name ++ '=' :: value) = some (name, value) :=
    cutFirst_eq_some.2 ⟨rfl, hname⟩
  have hlong : ofToken t index token = ofLong t index token (name ++ '=' :: value) := by
    unfold ofToken
    rw [htoken]
    cases name <;> rfl
  rw [hlong, ofLong, hcut]
  simp [he, hvalue]

/-- A run of short options. -/
theorem ofToken_short {t : Table ι} {index : Nat} {token : String} {head : Char} {tail : List Char}
    (htoken : token.toList = '-' :: head :: tail) (hhead : head ≠ '-') :
    ofToken t index token = ofRun t ⟨index, token, 1, head, tail⟩ := by
  unfold ofToken
  rw [htoken]
  split <;> simp_all

end Demand

namespace Cursor

/-- What a long option delivers from its own argument is what follows the first `=`. -/
theorem meet_ofLong {t : Table ι} {next index : Nat} {unread : List String} {token : String}
    {body : List Char} {m : Match ι} {v : Value} {c' : Cursor} (hindex : index < next)
    (h : (⟨next, unread, none⟩ : Cursor).meet (.ofLong t index token body) =
      (.ok (some (.option m)), c'))
    (hv : m.value = some v) (hi : v.slot.index = index) :
    ∃ name e, body = name ++ '=' :: v.text.toList ∧ '=' ∉ name ∧
      t.findLong? (String.ofList name) = some e ∧ e.takesValue = true ∧ m.id = e.id := by
  unfold Demand.ofLong at h
  generalize hcut : cutFirst '=' body = cut at h
  obtain _ | ⟨name, value⟩ := cut <;> dsimp only at h <;> split at h
  · cases h
  · split at h
    · cases unread with
      | nil => cases h
      | cons arg unread =>
        cases h
        cases hv
        exact absurd hi (Nat.ne_of_gt hindex)
    · cases h
      cases hv
  · cases h
  · next e he =>
    split at h
    · next hvalue =>
      obtain ⟨hbody, hname⟩ := cutFirst_eq_some.1 hcut
      cases h
      cases hv
      exact ⟨name, e, by simpa using hbody, hname, he, hvalue, rfl⟩
    · cases h
      cases hv

/-- A long option is done with its argument. -/
theorem le_place_of_meet_ofLong {t : Table ι} {next index : Nat} {unread : List String}
    {token : String} {body : List Char} {event : Event ι} {c' : Cursor}
    (h : (⟨next, unread, none⟩ : Cursor).meet (.ofLong t index token body) =
      (.ok (some event), c')) : next ≤ c'.place := by
  have hdeliver (event' : Event ι)
      (h : (⟨next, unread, none⟩ : Cursor).meet (.deliver event' none) =
        (.ok (some event), c')) : next ≤ c'.place := by
    cases h
    exact Nat.le_refl next
  have hawait (id : ι) (name : String)
      (h : (⟨next, unread, none⟩ : Cursor).meet (.await id name) =
        (.ok (some event), c')) : next ≤ c'.place := by
    cases unread with
    | nil => cases h
    | cons arg unread =>
      cases h
      exact Nat.le_succ next
  unfold Demand.ofLong at h
  dsimp only at h
  split at h
  · exact hdeliver _ h
  · split at h
    · split at h
      · exact hdeliver _ h
      · exact hawait _ _ h
    · exact hdeliver _ h

/-- **A value in an argument is the end of it**: what follows the first `=` of a long option, or the
end of a run. -/
theorem token_of_mem_stream {t : Table ι} {next : Nat} {token : String} {unread : List String}
    {m : Match ι} {v : Value}
    (hm : .option m ∈ ((⟨next, token :: unread, none⟩ : Cursor).stream t).events)
    (hv : m.value = some v) (hi : v.slot.index = next) :
    (∃ name e, token.toList = '-' :: '-' :: (name ++ '=' :: v.text.toList) ∧ '=' ∉ name ∧
      t.findLong? (String.ofList name) = some e ∧ e.takesValue = true ∧ m.id = e.id) ∨
    ∃ head front, token.toList = '-' :: head :: (front ++ v.text.toList) ∧ head ≠ '-' := by
  generalize hc : (⟨next, token :: unread, none⟩ : Cursor) = c at hm
  have hsound : c.Sound := hc ▸ sound_of_run_eq_none rfl
  obtain ⟨event, c', hstep⟩ := exists_step_of_mem_stream hm
  have hmem := mem_stream_of_step hsound hstep hv hm
  subst hc
  have hmeet := hstep
  rw [step_cons] at hmeet
  have hnext : next < c'.place → event = .option m := fun hlt => by
    rcases hmem with h | ⟨-, hplace⟩
    · exact h
    · omega
  unfold Demand.ofToken at hmeet
  split at hmeet
  · cases hmeet
    cases hnext (Nat.lt_succ_self next)
  · next body hbody htoken =>
    rw [hnext (le_place_of_meet_ofLong hmeet)] at hmeet
    obtain ⟨name, e, rfl, hname, he, hvalue, hid⟩ := meet_ofLong (Nat.lt_succ_self next) hmeet hv hi
    exact .inl ⟨name, e, htoken, hname, he, hvalue, hid⟩
  · next head tail _ hhead htoken =>
    have hrun : (⟨next, token :: unread, none⟩ : Cursor).step t =
        (⟨next + 1, unread, none⟩ : Cursor).meet (.ofRun t ⟨next, token, 1, head, tail⟩) := by
      rw [step_cons, Demand.ofToken_short htoken hhead]
    obtain ⟨e, -, ⟨-, -, htail, -⟩ | ⟨-, head', front, htail⟩⟩ :=
      run_of_mem_stream hsound (Nat.lt_succ_self next) hrun hm hv hi
    · exact .inr ⟨head, [], by rw [htoken]; simpa using htail, hhead⟩
    · exact .inr ⟨head, head' :: front, by rw [htoken]; simpa using htail, hhead⟩
  · cases hmeet
    cases hnext (Nat.lt_succ_self next)

end Cursor

end VmControl.Options
