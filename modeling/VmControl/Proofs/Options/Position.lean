import VmControl.Proofs.Options.Slots

/-!
# Reading by position

A cursor holds the arguments that are still to be read.  A position says the same in numbers: where
the next argument is, and the argument and the byte that an unfinished run has come to.  Reading by
position looks everything up on the line, and there is much that could go wrong: a number may be
past the end of the line or of an argument, a byte may be inside a character, and a run may have no
character left.  None of it happens, whatever tables a line is read with, since a cursor stays on
its line.

## Main definitions

* `Text.cutByte?`: the text before and after a byte.
* `Position.step`: a step by position, which may go wrong.
* `Cursor.On`: a cursor holds what is unread of a line.

## Main statements

* `Cursor.On.step`: a cursor stays on its line.
* `Cursor.On.step_position`: a step by position does not go wrong, and comes to the same.
* `Cursor.reading_is_safe`: a line is read to its end, and nothing goes wrong on the way.
-/

namespace VmControl.Text

/-- The length in bytes is that of the encoded text. -/
theorem byteLength_toList (s : String) : byteLength s.toList = s.utf8ByteSize := by
  have hchars (cs : List Char) : byteLength cs = (String.ofList cs).utf8ByteSize := by
    induction cs with
    | nil => rfl
    | cons c cs ih => rw [String.ofList_cons]; simp [ih]
  rw [hchars, String.ofList_toList]

/-- The byte at which the first character with `p` starts. -/
def findByte (p : Char → Bool) : List Char → Option Nat
  | [] => none
  | c :: cs => if p c then some 0 else (findByte p cs).map (c.utf8Size + ·)

/-- The first separator is where `cutFirst` cuts. -/
theorem findByte_eq (sep : Char) (cs : List Char) :
    findByte (· == sep) cs = (cutFirst sep cs).map fun parts => byteLength parts.1 := by
  induction cs with
  | nil => rfl
  | cons c cs ih =>
    by_cases hc : c = sep
    · simp [findByte, cutFirst, hc]
    · cases hcut : cutFirst sep cs <;> simp [findByte, cutFirst, hc, ih, hcut]

/-- The text before and after byte `n`, unless that is past the end or inside a character. -/
def cutByte? : Nat → List Char → Option (List Char × List Char)
  | 0, cs => some ([], cs)
  | _ + 1, [] => none
  | n + 1, c :: cs =>
    if c.utf8Size ≤ n + 1 then
      (cutByte? (n + 1 - c.utf8Size) cs).map fun (before, after) => (c :: before, after)
    else none

theorem cutByte?_eq_some {n : Nat} {cs before after : List Char} :
    cutByte? n cs = some (before, after) ↔ cs = before ++ after ∧ byteLength before = n := by
  induction cs generalizing n before with
  | nil =>
    cases n with
    | zero => cases before <;> simp [cutByte?, eq_comm]
    | succ n => cases before <;> simp [cutByte?]
  | cons c cs ih =>
    have hpos := c.utf8Size_pos
    cases n with
    | zero =>
      cases before with
      | nil => simp [cutByte?, eq_comm]
      | cons b bs =>
        have hb := b.utf8Size_pos
        simp only [cutByte?, Option.some.injEq, Prod.mk.injEq, byteLength_cons, List.cons_append]
        constructor
        · rintro ⟨h, -⟩
          cases h
        · rintro ⟨-, h⟩
          omega
    | succ n =>
      cases before with
      | nil => simp [cutByte?]
      | cons b bs =>
        simp only [cutByte?, List.cons_append, List.cons.injEq, byteLength_cons]
        split
        · simp only [Option.map_eq_some_iff, Prod.exists, Prod.mk.injEq, List.cons.injEq]
          constructor
          · rintro ⟨x, y, h, ⟨rfl, rfl⟩, rfl⟩
            obtain ⟨hcs, hlen⟩ := ih.1 h
            exact ⟨⟨rfl, hcs⟩, by omega⟩
          · rintro ⟨⟨rfl, hcs⟩, hlen⟩
            exact ⟨bs, after, ih.2 ⟨hcs, by omega⟩, ⟨rfl, rfl⟩, rfl⟩
        · next hlt =>
          constructor
          · intro h
            cases h
          · rintro ⟨⟨rfl, -⟩, hlen⟩
            omega

end VmControl.Text

namespace VmControl.Options

open VmControl.Text

variable {ι : Type}

/-- What stands in a slot: none unless it is part of an argument and cuts no character. -/
def Slot.text? (args : List String) (s : Slot) : Option String :=
  match args[s.index]? with
  | none => none
  | some arg =>
    match cutByte? s.stop arg.toList with
    | none => none
    | some (front, _) => (cutByte? s.start front).map fun (_, text) => String.ofList text

/-- The end of an argument stands from its first byte on. -/
theorem Slot.text?_suffix {args : List String} {index : Nat} {arg : String} {front text : List Char}
    (harg : args[index]? = some arg) (h : arg.toList = front ++ text) :
    Slot.text? args ⟨index, byteLength front, byteLength arg.toList⟩ =
      some (String.ofList text) := by
  have hstop : cutByte? (byteLength arg.toList) arg.toList = some (arg.toList, []) :=
    cutByte?_eq_some.2 ⟨by simp, rfl⟩
  have hstart : cutByte? (byteLength front) arg.toList = some (front, text) :=
    cutByte?_eq_some.2 ⟨h, rfl⟩
  simp [Slot.text?, harg, hstop, hstart]

/-! ## Positions -/

/-- A position on a line. -/
structure Position where
  /-- The position of the next argument. -/
  next : Nat
  /-- The argument that holds the unfinished run, and the byte that it has come to. -/
  run : Option (Nat × Nat)
  deriving DecidableEq, Repr

/-- What could go wrong when a line is read by position. -/
inductive Fault where
  /-- There is no such argument, or no character starts at that byte. -/
  | misplaced
  /-- The run has no character left. -/
  | exhausted
  deriving DecidableEq, Repr

namespace Position

/-- What a step comes to unless it goes wrong: what it delivers, and the position after it. -/
abbrev Outcome (ι : Type) := Except Fault (Except MissingValue (Option (Event ι)) × Position)

/-- Delivers an option whose value stands in a slot. -/
def deliver (p : Position) (args : List String) (id : ι) (name : String) (slot : Slot) :
    Outcome ι :=
  match slot.text? args with
  | none => .error .misplaced
  | some text => .ok (.ok (some (.option ⟨id, name, some ⟨text, slot⟩⟩)), p)

/-- Delivers an option with the next whole argument as its value. -/
def takeNext (p : Position) (args : List String) (id : ι) (name : String) : Outcome ι :=
  match args[p.next]? with
  | none => .ok (.error ⟨name⟩, p)
  | some arg =>
    { p with next := p.next + 1 }.deliver args id name ⟨p.next, 0, byteLength arg.toList⟩

/-- The name of a long option, `body` being what follows its dashes, and the byte of the argument at
which its value starts.  The name is cut off where the first `=` is found. -/
def longName? (body : List Char) : Option (List Char × Option Nat) :=
  match findByte (· == '=') body with
  | none => some (body, none)
  | some byte => (cutByte? byte body).map fun (name, _) => (name, some (byte + 3))

/-- Reads the long option in the argument at `index`, `body` being what follows its dashes. -/
def readLong (p : Position) (args : List String) (t : Table ι) (index : Nat) (token : String)
    (body : List Char) : Outcome ι :=
  match longName? body with
  | none => .error .misplaced
  | some (name, inline) =>
    match t.findLong? (String.ofList name) with
    | none => .ok (.ok (some (.unknown index token)), p)
    | some e =>
      let spelled := "--" ++ String.ofList name
      if e.takesValue then
        match inline with
        | some start => p.deliver args e.id spelled ⟨index, start, byteLength token.toList⟩
        | none => p.takeNext args e.id spelled
      else .ok (.ok (some (.option ⟨e.id, spelled, none⟩)), p)

/-- Reads the short option that starts at a byte of the argument at `index`. -/
def readShort (p : Position) (args : List String) (t : Table ι) (index offset : Nat) :
    Outcome ι :=
  match args[index]? with
  | none => .error .misplaced
  | some token =>
    match cutByte? offset token.toList with
    | none => .error .misplaced
    | some (_, []) => .error .exhausted
    | some (_, c :: _) =>
      match t.findShort? c with
      | none => .ok (.ok (some (.unknown index token)), p)
      | some e =>
        let spelled := "-" ++ String.singleton c
        let rest := offset + c.utf8Size
        let stop := byteLength token.toList
        if e.takesValue then
          if rest < stop then p.deliver args e.id spelled ⟨index, rest, stop⟩
          else p.takeNext args e.id spelled
        else
          .ok (.ok (some (.option ⟨e.id, spelled, none⟩)),
            if rest < stop then { p with run := some (index, rest) } else p)

/-- One step by position. -/
def step (args : List String) (t : Table ι) (p : Position) : Outcome ι :=
  match p.run with
  | some (index, offset) => { p with run := none }.readShort args t index offset
  | none =>
    match args[p.next]? with
    | none => .ok (.ok none, p)
    | some token =>
      let after : Position := ⟨p.next + 1, none⟩
      match token.toList with
      | ['-', '-'] => .ok (.ok (some (.unknown p.next token)), after)
      | '-' :: '-' :: body => after.readLong args t p.next token body
      | '-' :: _ :: _ => after.readShort args t p.next 1
      | _ => .ok (.ok (some (.unknown p.next token)), after)

/-- What is unread at a position: the bytes and the number of the arguments from the next one on,
and the bytes of the argument of an unfinished run from where that has come to. -/
def unreadSize (args : List String) (p : Position) : Nat :=
  (args.drop p.next).foldr (fun arg n => arg.utf8ByteSize + 1 + n) 0 +
    match p.run with
    | some (index, offset) => (args[index]?.elim 0 String.utf8ByteSize) - offset
    | none => 0

end Position

/-! ## Cursors on a line -/

/-- The position of a cursor. -/
def Cursor.position (c : Cursor) : Position := ⟨c.next, c.run.map fun r => (r.index, r.offset)⟩

/-- Whether a run is what is left of the argument before the next one. -/
structure Run.On (args : List String) (next : Nat) (r : Run) : Prop where
  /-- The next argument follows that of the run. -/
  next : r.index + 1 = next
  /-- The run is in an argument of the line. -/
  token : args[r.index]? = some r.token
  /-- It is what follows the bytes that were read. -/
  rest : ∃ front, r.token.toList = front ++ r.head :: r.tail ∧ byteLength front = r.offset
  /-- They include the dash. -/
  offset : 1 ≤ r.offset

/-- Whether a cursor holds what is unread of a line. -/
structure Cursor.On (args : List String) (c : Cursor) : Prop where
  /-- The arguments from the next one on. -/
  unread : c.unread = args.drop c.next
  /-- The rest of the argument before it. -/
  run : ∀ r, c.run = some r → r.On args c.next

theorem drop_of_getElem? {args : List String} {n : Nat} {arg : String} (h : args[n]? = some arg) :
    args.drop n = arg :: args.drop (n + 1) := by
  obtain ⟨hlt, rfl⟩ := List.getElem?_eq_some_iff.1 h
  exact List.drop_eq_getElem_cons hlt

theorem drop_of_getElem?_eq_none {args : List String} {n : Nat} (h : args[n]? = none) :
    args.drop n = [] :=
  List.drop_eq_nil_iff.2 (List.getElem?_eq_none_iff.1 h)

namespace Cursor

variable {args : List String} {next : Nat}

/-- A cursor between two arguments is on the line. -/
theorem on_of_run_eq_none {unread : List String} (h : unread = args.drop next) :
    (⟨next, unread, none⟩ : Cursor).On args where
  unread := h
  run r hr := by cases hr

theorem on_ofArgs (args : List String) (start : Nat) : (ofArgs args start).On args :=
  on_of_run_eq_none rfl

/-- Whether a step on a line leaves the cursor on it, and reading by position comes to the same. -/
def Agrees (args : List String) (x : Except MissingValue (Option (Event ι)) × Cursor)
    (y : Position.Outcome ι) : Prop :=
  x.2.On args ∧ y = .ok (x.1, x.2.position)

theorem agrees_takeNext (args : List String) (next : Nat) (id : ι) (name : String) :
    Agrees args ((⟨next, args.drop next, none⟩ : Cursor).takeNext id name)
      ((⟨next, none⟩ : Position).takeNext args id name) := by
  cases harg : args[next]? with
  | none =>
    have hdrop := drop_of_getElem?_eq_none harg
    simp only [takeNext, hdrop, Position.takeNext, harg]
    exact ⟨on_of_run_eq_none hdrop.symm, rfl⟩
  | some arg =>
    have htext := Slot.text?_suffix harg (List.nil_append arg.toList).symm
    rw [byteLength_nil, String.ofList_toList] at htext
    simp only [takeNext, drop_of_getElem? harg, Position.takeNext, harg, Position.deliver, htext]
    exact ⟨on_of_run_eq_none rfl, rfl⟩

/-- A name is cut off where a character starts. -/
theorem longName?_eq (body : List Char) : Position.longName? body =
    some (match cutFirst '=' body with
      | some (name, _) => (name, some (byteLength name + 3))
      | none => (body, none)) := by
  rw [Position.longName?, findByte_eq]
  cases hcut : cutFirst '=' body with
  | none => rfl
  | some parts =>
    obtain ⟨name, value⟩ := parts
    obtain ⟨hbody, -⟩ := cutFirst_eq_some.1 hcut
    have hname : cutByte? (byteLength name) body = some (name, '=' :: value) :=
      cutByte?_eq_some.2 ⟨hbody, rfl⟩
    simp only [Option.map_some, hname]

theorem agrees_readLong {t : Table ι} {index : Nat} {token : String} {body : List Char}
    (hindex : args[index]? = some token) (htoken : token.toList = '-' :: '-' :: body) :
    Agrees args ((⟨next, args.drop next, none⟩ : Cursor).readLong t index token body)
      ((⟨next, none⟩ : Position).readLong args t index token body) := by
  have hon : (⟨next, args.drop next, none⟩ : Cursor).On args := on_of_run_eq_none rfl
  unfold readLong Position.readLong
  rw [longName?_eq]
  generalize hcut : cutFirst '=' body = cut
  obtain _ | ⟨name, value⟩ := cut <;> dsimp only
  · cases t.findLong? (String.ofList body) with
    | none => exact ⟨hon, rfl⟩
    | some e =>
      dsimp only
      split
      · exact agrees_takeNext args next e.id _
      · exact ⟨hon, rfl⟩
  · cases t.findLong? (String.ofList name) with
    | none => exact ⟨hon, rfl⟩
    | some e =>
      dsimp only
      split
      · obtain ⟨rfl, -⟩ := cutFirst_eq_some.1 hcut
        have hfront : token.toList = ('-' :: '-' :: (name ++ ['='])) ++ value := by simp [htoken]
        have htext := Slot.text?_suffix hindex hfront
        have hlength : byteLength ('-' :: '-' :: (name ++ ['='])) = byteLength name + 3 := by
          simp only [byteLength_cons, byteLength_append, byteLength_nil,
            show '-'.utf8Size = 1 from rfl, show '='.utf8Size = 1 from rfl]
          omega
        rw [hlength] at htext
        simp only [Position.deliver, htext]
        exact ⟨hon, rfl⟩
      · exact ⟨hon, rfl⟩

theorem agrees_readShort {t : Table ι} {r : Run} (hr : r.On args next) :
    Agrees args ((⟨next, args.drop next, none⟩ : Cursor).readShort t r)
      ((⟨next, none⟩ : Position).readShort args t r.index r.offset) := by
  have hon : (⟨next, args.drop next, none⟩ : Cursor).On args := on_of_run_eq_none rfl
  obtain ⟨front, htoken, hfront⟩ := hr.rest
  have hcut : cutByte? r.offset r.token.toList = some (front, r.head :: r.tail) :=
    cutByte?_eq_some.2 ⟨htoken, hfront⟩
  have hstop : byteLength r.token.toList = r.offset + r.head.utf8Size + byteLength r.tail := by
    rw [htoken, byteLength_append, byteLength_cons, hfront]
    omega
  unfold readShort Position.readShort
  simp only [hr.token, hcut]
  cases t.findShort? r.head with
  | none => exact ⟨hon, rfl⟩
  | some e =>
    dsimp only
    -- The bytes after the character are the end of the run, or the next character.
    cases htail : r.tail with
    | nil =>
      have hend : ¬ r.offset + r.head.utf8Size < byteLength r.token.toList := by
        rw [hstop, htail, byteLength_nil]
        omega
      cases e.takesValue with
      | true =>
        simp only [hend, if_true, if_false]
        exact agrees_takeNext args next e.id _
      | false =>
        simp only [hend, if_false, Bool.false_eq_true]
        exact ⟨hon, rfl⟩
    | cons head tail =>
      have hmore : r.offset + r.head.utf8Size < byteLength r.token.toList := by
        have hpos := head.utf8Size_pos
        rw [hstop, htail, byteLength_cons]
        omega
      have hrest : r.token.toList = (front ++ [r.head]) ++ head :: tail := by
        rw [htoken, htail]
        simp
      have hlength : byteLength (front ++ [r.head]) = r.offset + r.head.utf8Size := by
        rw [byteLength_append, hfront]
        rfl
      cases e.takesValue with
      | true =>
        have htext := Slot.text?_suffix hr.token hrest
        rw [hlength] at htext
        simp only [hmore, if_true, Position.deliver, htext]
        exact ⟨hon, rfl⟩
      | false =>
        simp only [hmore, if_true, if_false, Bool.false_eq_true]
        refine ⟨⟨rfl, ?_⟩, rfl⟩
        rintro _ ⟨⟩
        exact ⟨hr.next, hr.token, ⟨_, hrest, hlength⟩, Nat.le_trans hr.offset (Nat.le_add_right ..)⟩

theorem agrees_step {c : Cursor} (h : c.On args) (t : Table ι) :
    Agrees args (c.step t) (c.position.step args t) := by
  obtain ⟨next, unread, run⟩ := c
  obtain rfl : unread = args.drop next := h.unread
  cases run with
  | some r => exact agrees_readShort (h.run r rfl)
  | none =>
    cases harg : args[next]? with
    | none =>
      have hdrop := drop_of_getElem?_eq_none harg
      simp only [step, hdrop, position, Position.step, Option.map_none, harg]
      exact ⟨on_of_run_eq_none hdrop.symm, rfl⟩
    | some token =>
      have hon : (⟨next + 1, args.drop (next + 1), none⟩ : Cursor).On args := on_of_run_eq_none rfl
      simp only [step, drop_of_getElem? harg, position, Position.step, Option.map_none, harg]
      -- Two characters tell which kind of argument it is.
      generalize hchars : token.toList = chars
      rcases chars with _ | ⟨first, _ | ⟨second, rest⟩⟩
      · exact ⟨hon, rfl⟩
      · by_cases hfirst : first = '-'
        · subst hfirst
          exact ⟨hon, rfl⟩
        · simp only
          exact ⟨hon, rfl⟩
      · by_cases hfirst : first = '-'
        · subst hfirst
          by_cases hsecond : second = '-'
          · subst hsecond
            cases rest with
            | nil => exact ⟨hon, rfl⟩
            | cons c body => exact agrees_readLong harg hchars
          · simp only [hsecond, imp_false, false_implies]
            refine agrees_readShort (r := ⟨next, token, 1, second, rest⟩) ⟨rfl, harg, ?_, ?_⟩
            · exact ⟨['-'], hchars, rfl⟩
            · exact Nat.le_refl 1
        · simp only [List.cons.injEq, hfirst, false_and, imp_self, implies_true]
          exact ⟨hon, rfl⟩

/-- **A cursor stays on its line.** -/
theorem On.step {c : Cursor} (h : c.On args) (t : Table ι) : (c.step t).2.On args :=
  (agrees_step h t).1

/-- **Reading by position does not go wrong**, and comes to the same. -/
theorem On.step_position {c : Cursor} (h : c.On args) (t : Table ι) :
    c.position.step args t = .ok ((c.step t).1, (c.step t).2.position) :=
  (agrees_step h t).2

/-! ## Progress -/

theorem next_le_meet (next : Nat) (unread : List String) (d : Demand ι) :
    next ≤ ((⟨next, unread, none⟩ : Cursor).meet d).2.next := by
  cases d with
  | deliver event run => exact Nat.le_refl next
  | await id name =>
    cases unread with
    | nil => exact Nat.le_refl next
    | cons arg unread => exact Nat.le_succ next

theorem next_le_step (t : Table ι) (c : Cursor) : c.next ≤ (c.step t).2.next := by
  obtain ⟨next, unread, _ | r⟩ := c
  · cases unread with
    | nil => exact Nat.le_refl next
    | cons token unread =>
      rw [step_cons]
      exact Nat.le_trans (Nat.le_succ next) (next_le_meet (next + 1) unread _)
  · rw [step_run]
    exact next_le_meet next unread _

/-- Meeting a demand delivers something, or misses a value. -/
theorem meet_ne_done (c : Cursor) (d : Demand ι) : (c.meet d).1 ≠ .ok none := by
  obtain ⟨next, unread, run⟩ := c
  cases d with
  | deliver event run => simp [meet]
  | await id name => cases unread <;> simp [meet, takeNext]

theorem unreadSize_eq_zero {c : Cursor} : c.unreadSize = 0 ↔ c.unread = [] ∧ c.run = none := by
  obtain ⟨next, _ | ⟨token, unread⟩, _ | r⟩ := c
  · simp [unreadSize]
  · have hpos := r.head.utf8Size_pos
    simp only [unreadSize, byteLength_cons, reduceCtorEq, and_false, iff_false]
    omega
  · simp only [unreadSize, List.foldr_cons, reduceCtorEq, false_and, iff_false]
    omega
  · simp only [unreadSize, List.foldr_cons, reduceCtorEq, false_and, iff_false]
    omega

/-- A cursor is at the end exactly if nothing is left to it. -/
theorem step_eq_done {t : Table ι} {c : Cursor} :
    (c.step t).1 = .ok none ↔ c.unreadSize = 0 := by
  rw [unreadSize_eq_zero]
  obtain ⟨next, _ | ⟨token, unread⟩, _ | r⟩ := c
  · simp [step]
  · simp [step_run, meet_ne_done]
  · simp [step_cons, meet_ne_done]
  · simp [step_run, meet_ne_done]

/-- At the end a cursor stays where it is. -/
theorem step_of_unreadSize_eq_zero {c : Cursor} (h : c.unreadSize = 0) (t : Table ι) :
    (c.step t).2 = c := by
  obtain ⟨next, unread, run⟩ := c
  obtain ⟨rfl, rfl⟩ := unreadSize_eq_zero.1 h
  rfl

theorem unreadSize_step_lt {t : Table ι} {c : Cursor} (h : (c.step t).1 ≠ .ok none) :
    (c.step t).2.unreadSize < c.unreadSize := by
  refine c.unread_step_lt t fun hdone => h ?_
  generalize (c.step t).1 = out at hdone
  cases out with
  | error u => cases hdone
  | ok event => exact congrArg Except.ok (Option.some.inj hdone)

/-- What is unread can be told from the position. -/
theorem On.unreadSize_position {c : Cursor} (h : c.On args) :
    c.position.unreadSize args = c.unreadSize := by
  obtain ⟨next, unread, run⟩ := c
  obtain rfl : unread = args.drop next := h.unread
  simp only [Position.unreadSize, position, unreadSize, byteLength_toList]
  cases run with
  | none => rfl
  | some r =>
    obtain ⟨-, htoken, ⟨front, hrest, hfront⟩, -⟩ := h.run r rfl
    have hsize : r.token.utf8ByteSize = r.offset + byteLength (r.head :: r.tail) := by
      rw [← byteLength_toList, hrest, byteLength_append, hfront]
    simp only [Option.map_some, htoken, Option.elim_some, hsize]
    omega

/-! ## Any number of steps -/

/-- The cursor after so many steps, of which number `i` goes by the table `tables i`.  A step that
misses a value counts like any other. -/
def afterSteps (tables : Nat → Table ι) (c : Cursor) : Nat → Cursor
  | 0 => c
  | n + 1 => ((c.afterSteps tables n).step (tables n)).2

variable {tables : Nat → Table ι} {c : Cursor}

theorem On.afterSteps (h : c.On args) (n : Nat) : (c.afterSteps tables n).On args := by
  induction n with
  | zero => exact h
  | succ n ih => exact ih.step (tables n)

/-- Every step takes something away until nothing is left. -/
theorem unreadSize_step_le (t : Table ι) (c : Cursor) :
    (c.step t).2.unreadSize ≤ c.unreadSize - 1 := by
  by_cases hdone : c.unreadSize = 0
  · rw [step_of_unreadSize_eq_zero hdone]
    omega
  · have hlt := unreadSize_step_lt (t := t) (mt step_eq_done.1 hdone)
    omega

/-- So a cursor is at the end after as many steps as there is unread, and stays there. -/
theorem unreadSize_afterSteps_le (tables : Nat → Table ι) {m n : Nat} (h : m ≤ n) :
    (c.afterSteps tables n).unreadSize ≤ (c.afterSteps tables m).unreadSize - (n - m) := by
  induction n with
  | zero =>
    obtain rfl := Nat.le_zero.1 h
    exact Nat.le_refl _
  | succ n ih =>
    rcases Nat.lt_or_eq_of_le h with hlt | rfl
    · have hle := Nat.le_of_lt_succ hlt
      have hstep := unreadSize_step_le (tables n) (c.afterSteps tables n)
      have hbefore := ih hle
      show ((c.afterSteps tables n).step (tables n)).2.unreadSize ≤ _
      omega
    · simp

/-- **A line is read to its end, and nothing goes wrong on the way**, whatever table each step goes
by, and even if steps before missed a value.  Let `n` steps be made, and one more.

* An unfinished run is in the argument before the next one, and has come to a byte behind the first
  one at which a character starts.
* The position of the next argument does not go down.
* Unless the cursor is at the end, less is unread than before.
* The cursor is at the end after as many steps as there are bytes and arguments.
* Once at the end it stays there.
* A step by position does the same: no number is out of range, no character is cut, and no run is
  without characters. -/
theorem reading_is_safe (args : List String) (start : Nat) (tables : Nat → Table ι) (n : Nat) :
    let c := (ofArgs args start).afterSteps tables
    (∀ index offset, (c n).position.run = some (index, offset) →
      index + 1 = (c n).next ∧ (c n).next ≤ args.length ∧
        ∃ arg before after : String, args[index]? = some arg ∧ arg = before ++ after ∧
          before.utf8ByteSize = offset ∧ 1 ≤ offset ∧ offset < arg.utf8ByteSize) ∧
    (c n).next ≤ (c (n + 1)).next ∧
    (((c n).step (tables n)).1 ≠ .ok none →
      (c (n + 1)).position.unreadSize args < (c n).position.unreadSize args) ∧
    ((args.drop start).foldr (fun arg n => arg.utf8ByteSize + 1 + n) 0 ≤ n →
      ((c n).step (tables n)).1 = .ok none) ∧
    (((c n).step (tables n)).1 = .ok none → ∀ m, n ≤ m → ((c m).step (tables m)).1 = .ok none) ∧
    (c n).position.step args (tables n) =
      .ok (((c n).step (tables n)).1, (c (n + 1)).position) := by
  intro c
  have hon (n : Nat) : (c n).On args := (on_ofArgs args start).afterSteps n
  refine ⟨fun index offset hrun => ?_, next_le_step _ _, fun hevent => ?_, fun hle => ?_,
    fun hdone m hm => ?_, (hon n).step_position (tables n)⟩
  · obtain ⟨r, hr, hplace⟩ := Option.map_eq_some_iff.1 hrun
    obtain ⟨rfl, rfl⟩ := Prod.mk.inj hplace
    obtain ⟨hnext, htoken, ⟨front, hrest, hfront⟩, hoffset⟩ := (hon n).run r hr
    have hlt : r.index < args.length := (List.getElem?_eq_some_iff.1 htoken).1
    have hpos := r.head.utf8Size_pos
    refine ⟨hnext, by omega, r.token, String.ofList front, String.ofList (r.head :: r.tail), htoken,
      ?_, ?_, hoffset, ?_⟩
    · rw [← String.ofList_append, ← hrest, String.ofList_toList]
    · rw [← byteLength_toList, String.toList_ofList, hfront]
    · rw [← byteLength_toList, hrest, byteLength_append, byteLength_cons, hfront]
      omega
  · rw [(hon n).unreadSize_position, (hon (n + 1)).unreadSize_position]
    exact unreadSize_step_lt hevent
  · have hsize := unreadSize_afterSteps_le tables (c := ofArgs args start) n.zero_le
    have hstart : ((ofArgs args start).afterSteps tables 0).unreadSize =
        (args.drop start).foldr (fun arg n => arg.utf8ByteSize + 1 + n) 0 :=
      (on_ofArgs args start).unreadSize_position.symm
    have hzero : (c n).unreadSize = 0 := by
      show ((ofArgs args start).afterSteps tables n).unreadSize = 0
      omega
    exact step_eq_done.2 hzero
  · have hsize := unreadSize_afterSteps_le tables (c := ofArgs args start) hm
    have hzero : ((ofArgs args start).afterSteps tables n).unreadSize = 0 := step_eq_done.1 hdone
    have hend : (c m).unreadSize = 0 := by
      show ((ofArgs args start).afterSteps tables m).unreadSize = 0
      omega
    exact step_eq_done.2 hend

end Cursor

end VmControl.Options
