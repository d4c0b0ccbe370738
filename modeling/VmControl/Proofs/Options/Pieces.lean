import VmControl.Options.Tables
import VmControl.Proofs.Options.Position

/-!
# The pieces of a line

A line that is read to its end falls into pieces.  A piece is an argument with what is read from it,
and the argument after it if that is the value of an option.  So nothing on a line is lost, read
twice or moved: put together in order, the pieces are the line.

## Main definitions

* `RunPiece`: what a run of short options comes to.
* `Piece`: what an argument comes to.
* `Pieces`: the pieces of a line.
* `Table.Tiles`: the steps of reading go over a line without gaps.

## Main statements

* `Pieces.stream`: what the pieces of a line come to is read from it.
* `Table.read_eq_iff_pieces`: a line is read to its end exactly if it falls into pieces.
* `Table.read_tiles_line`: the steps of reading go over such a line without gaps.
-/

namespace VmControl.Options

open VmControl.Text

variable {ι : Type}

/-- The value that is the whole argument at `index`. -/
def Value.whole (index : Nat) (arg : String) : Value := ⟨arg, ⟨index, 0, byteLength arg.toList⟩⟩

/-- A short option without its value. -/
def Match.short (e : Entry ι) (c : Char) (value : Option Value) : Match ι :=
  ⟨e.id, "-" ++ String.singleton c, value⟩

/-- A long option without its value. -/
def Match.long (e : Entry ι) (name : String) (value : Option Value) : Match ι :=
  ⟨e.id, "--" ++ name, value⟩

/-- What a run of short options comes to.  `RunPiece t index token offset cs events args` says that
`events` are read from the characters `cs`, which start at the byte `offset` of the argument `token`
at `index`, and that `args` is the value after that argument, if there is one. -/
inductive RunPiece (t : Table ι) (index : Nat) (token : String) :
    Nat → List Char → List (Event ι) → List String → Prop where
  /-- A character that is no option ends the run, and the argument as a whole counts as unknown. -/
  | unknown {offset : Nat} {c : Char} {cs : List Char} (he : t.findShort? c = none) :
      RunPiece t index token offset (c :: cs) [.unknown index token] []
  /-- An option without a value ends the run. -/
  | last {offset : Nat} {c : Char} {e : Entry ι} (he : t.findShort? c = some e)
      (hvalue : e.takesValue = false) :
      RunPiece t index token offset [c] [.option (.short e c none)] []
  /-- What follows an option with a value is the value. -/
  | inline {offset : Nat} {c : Char} {e : Entry ι} {value : List Char}
      (he : t.findShort? c = some e) (hvalue : e.takesValue = true) (hne : value ≠ []) :
      RunPiece t index token offset (c :: value)
        [.option (.short e c (some ⟨String.ofList value,
          ⟨index, offset + c.utf8Size, byteLength token.toList⟩⟩))] []
  /-- If nothing follows it the value is the next argument. -/
  | separate {offset : Nat} {c : Char} {e : Entry ι} (value : String)
      (he : t.findShort? c = some e) (hvalue : e.takesValue = true) :
      RunPiece t index token offset [c] [.option (.short e c (some (.whole (index + 1) value)))]
        [value]
  /-- After an option without a value the run goes on. -/
  | flag {offset : Nat} {c : Char} {cs : List Char} {e : Entry ι} {events : List (Event ι)}
      {args : List String} (he : t.findShort? c = some e) (hvalue : e.takesValue = false)
      (hne : cs ≠ []) (h : RunPiece t index token (offset + c.utf8Size) cs events args) :
      RunPiece t index token offset (c :: cs) (.option (.short e c none) :: events) args

/-- Whether an argument is neither a long option nor a run: if anything follows a dash, it is a
second one, and what follows that is no name. -/
def Table.Ignores (t : Table ι) (token : String) : Prop :=
  ∀ c body, token.toList = '-' :: c :: body →
    c = '-' ∧ (body ≠ [] → t.findLong? (String.ofList (body.takeWhile (· ≠ '='))) = none)

/-- What an argument comes to.  `Piece t index events args` says that `events` are read from `args`,
which are the argument at `index`, and the one after it if that is a value. -/
inductive Piece (t : Table ι) (index : Nat) : List (Event ι) → List String → Prop where
  /-- An argument that is no option. -/
  | ignored {token : String} (h : t.Ignores token) : Piece t index [.unknown index token] [token]
  /-- A long option without a value.  What follows a `=` has no effect. -/
  | longFlag {name tail : String} {e : Entry ι} (he : t.findLong? name = some e)
      (hvalue : e.takesValue = false) (hname : '=' ∉ name.toList)
      (htail : (tail = "" ∧ name ≠ "") ∨ ∃ rest, tail = "=" ++ rest) :
      Piece t index [.option (.long e name none)] ["--" ++ name ++ tail]
  /-- A long option with its value behind a `=`. -/
  | longInline {name value : String} {e : Entry ι} (he : t.findLong? name = some e)
      (hvalue : e.takesValue = true) (hname : '=' ∉ name.toList) :
      Piece t index
        [.option (.long e name (some ⟨value, ⟨index, byteLength name.toList + 3,
          byteLength ("--" ++ name ++ "=" ++ value).toList⟩⟩))] ["--" ++ name ++ "=" ++ value]
  /-- A long option with the next argument as its value. -/
  | longSeparate {name : String} {e : Entry ι} (value : String) (he : t.findLong? name = some e)
      (hvalue : e.takesValue = true) (hname : '=' ∉ name.toList) (hne : name ≠ "") :
      Piece t index [.option (.long e name (some (.whole (index + 1) value)))]
        ["--" ++ name, value]
  /-- A run of short options. -/
  | run {c : Char} {cs : List Char} {events : List (Event ι)} {args : List String} (hc : c ≠ '-')
      (h : RunPiece t index (String.ofList ('-' :: c :: cs)) 1 (c :: cs) events args) :
      Piece t index events (String.ofList ('-' :: c :: cs) :: args)

/-- The pieces of a line from the argument at an index on. -/
inductive Pieces (t : Table ι) : Nat → List (Event ι) → List String → Prop where
  | nil (index : Nat) : Pieces t index [] []
  | cons {index : Nat} {events events' : List (Event ι)} {args args' : List String}
      (h : Piece t index events args) (hrest : Pieces t (index + args.length) events' args') :
      Pieces t index (events ++ events') (args ++ args')

/-! ## From pieces to the line -/

/-- A stream with events before it. -/
def Stream.after (events : List (Event ι)) (s : Stream ι) : Stream ι :=
  { s with events := events ++ s.events }

namespace Cursor

variable {t : Table ι} {next : Nat} {rest : List String}

theorem stream_of_deliver {c : Cursor} {event : Event ι} {r : Option Run}
    (h : c.step t = (⟨next, rest, none⟩ : Cursor).meet (.deliver event r)) :
    c.stream t = .after [event] ((⟨next, rest, r⟩ : Cursor).stream t) :=
  stream_of_step h

theorem stream_of_await {c : Cursor} {id : ι} {name value : String}
    (h : c.step t = (⟨next, value :: rest, none⟩ : Cursor).meet (.await id name)) :
    c.stream t = .after [.option ⟨id, name, some (.whole next value)⟩]
      ((⟨next + 1, rest, none⟩ : Cursor).stream t) :=
  stream_of_step h

/-- A step that reads from a run is the first of those that read all that the run comes to. -/
theorem stream_of_runPiece {index offset : Nat} {token : String} {head : Char} {tail : List Char}
    {events : List (Event ι)} {args : List String} {c : Cursor}
    (h : RunPiece t index token offset (head :: tail) events args) (hnext : index + 1 = next)
    (hc : c.step t = (⟨next, args ++ rest, none⟩ : Cursor).meet
      (.ofRun t ⟨index, token, offset, head, tail⟩)) :
    c.stream t = .after events ((⟨next + args.length, rest, none⟩ : Cursor).stream t) := by
  generalize hcs : head :: tail = cs at h
  induction h generalizing head tail c with
  | unknown he =>
    obtain ⟨rfl, -⟩ := List.cons.inj hcs
    rw [Demand.ofRun_of_none he] at hc
    exact stream_of_deliver hc
  | last he hvalue =>
    obtain ⟨rfl, htail⟩ := List.cons.inj hcs
    rw [Demand.ofRun_last he hvalue htail] at hc
    exact stream_of_deliver hc
  | inline he hvalue hne =>
    obtain ⟨rfl, rfl⟩ := List.cons.inj hcs
    rw [Demand.ofRun_value he hvalue hne] at hc
    exact stream_of_deliver hc
  | separate value he hvalue =>
    obtain ⟨rfl, htail⟩ := List.cons.inj hcs
    subst hnext
    rw [Demand.ofRun_await he hvalue htail] at hc
    exact stream_of_await hc
  | flag he hvalue hne h ih =>
    obtain ⟨rfl, rfl⟩ := List.cons.inj hcs
    obtain ⟨head', tail', rfl⟩ := List.exists_cons_of_ne_nil hne
    rw [Demand.ofRun_flag he hvalue rfl] at hc
    -- The cursor is now within the run, so the next step is one of the shorter piece.
    rw [stream_of_deliver hc, ih (step_run ..) rfl]
    rfl

end Cursor

/-! ### Arguments -/

theorem takeWhile_of_cutFirst {body name value : List Char}
    (h : cutFirst '=' body = some (name, value)) : body.takeWhile (· ≠ '=') = name := by
  obtain ⟨rfl, hname⟩ := cutFirst_eq_some.1 h
  have hall : ∀ c ∈ name, decide (c ≠ '=') = true := by
    intro c hc
    rw [decide_eq_true_eq]
    rintro rfl
    exact hname hc
  rw [List.takeWhile_append_of_pos hall]
  simp

theorem takeWhile_of_cutFirst_eq_none {body : List Char} (h : cutFirst '=' body = none) :
    body.takeWhile (· ≠ '=') = body := by
  have hall : ∀ c ∈ body, decide (c ≠ '=') = true := by
    intro c hc
    rw [decide_eq_true_eq]
    rintro rfl
    exact cutFirst_eq_none.1 h hc
  have htake : (body ++ []).takeWhile (· ≠ '=') = _ := List.takeWhile_append_of_pos hall
  simpa using htake

namespace Demand

variable {t : Table ι} {index : Nat}

theorem ofToken_ignored {token : String} (h : t.Ignores token) :
    ofToken t index token = .deliver (.unknown index token) none := by
  unfold ofToken
  split
  · rfl
  · next body hbody htoken =>
    have hname := (h '-' body htoken).2 hbody
    unfold ofLong
    cases hcut : cutFirst '=' body with
    | none =>
      rw [takeWhile_of_cutFirst_eq_none hcut] at hname
      simp [hname]
    | some cut =>
      rw [takeWhile_of_cutFirst hcut] at hname
      simp [hname]
  · next head tail hbody hdash htoken =>
    exact absurd (h head tail htoken).1 hdash
  · rfl

theorem ofToken_body {token : String} {body : List Char}
    (htoken : token.toList = '-' :: '-' :: body) (hne : body ≠ []) :
    ofToken t index token = ofLong t index token body := by
  obtain ⟨c, body, rfl⟩ := List.exists_cons_of_ne_nil hne
  unfold ofToken
  rw [htoken]
  rfl

theorem ofLong_flag {token : String} {name tail : List Char} {e : Entry ι}
    (he : t.findLong? (String.ofList name) = some e) (hvalue : e.takesValue = false)
    (hname : '=' ∉ name) (htail : tail = [] ∨ ∃ rest, tail = '=' :: rest) :
    ofLong t index token (name ++ tail) =
      .deliver (.option (.long e (String.ofList name) none)) none := by
  rcases htail with rfl | ⟨rest, rfl⟩
  · have hcut : cutFirst '=' name = none := cutFirst_eq_none.2 hname
    simp [ofLong, hcut, he, hvalue, Match.long]
  · have hcut : cutFirst '=' (name ++ '=' :: rest) = some (name, rest) :=
      cutFirst_eq_some.2 ⟨rfl, hname⟩
    simp [ofLong, hcut, he, hvalue, Match.long]

theorem ofLong_await {token : String} {name : List Char} {e : Entry ι}
    (he : t.findLong? (String.ofList name) = some e) (hvalue : e.takesValue = true)
    (hname : '=' ∉ name) :
    ofLong t index token name = .await e.id ("--" ++ String.ofList name) := by
  have hcut : cutFirst '=' name = none := cutFirst_eq_none.2 hname
  simp [ofLong, hcut, he, hvalue]

end Demand

/-- What an argument comes to is read from it. -/
theorem Cursor.stream_of_piece {t : Table ι} {next : Nat} {rest : List String}
    {events : List (Event ι)} {args : List String} (h : Piece t next events args) :
    (⟨next, args ++ rest, none⟩ : Cursor).stream t =
      .after events ((⟨next + args.length, rest, none⟩ : Cursor).stream t) := by
  cases h with
  | ignored h =>
    refine stream_of_deliver (r := none) ?_
    rw [List.singleton_append, step_cons, Demand.ofToken_ignored h, List.length_singleton]
  | @longFlag name tail e he hvalue hname htail =>
    refine stream_of_deliver (r := none) ?_
    have htoken : ("--" ++ name ++ tail).toList = '-' :: '-' :: (name.toList ++ tail.toList) := by
      simp
    have htail' : tail.toList = [] ∨ ∃ rest, tail.toList = '=' :: rest := by
      rcases htail with ⟨rfl, -⟩ | ⟨rest, rfl⟩
      · exact .inl rfl
      · exact .inr ⟨rest.toList, by simp⟩
    have hne : name.toList ++ tail.toList ≠ [] := by
      rcases htail with ⟨rfl, hname⟩ | ⟨rest, rfl⟩
      · simpa using hname
      · simp
    rw [List.singleton_append, step_cons, Demand.ofToken_body htoken hne,
      Demand.ofLong_flag (by rwa [String.ofList_toList]) hvalue hname htail', String.ofList_toList,
      List.length_singleton]
  | @longInline name value e he hvalue hname =>
    refine stream_of_deliver (r := none) ?_
    have htoken : ("--" ++ name ++ "=" ++ value).toList =
        '-' :: '-' :: (name.toList ++ '=' :: value.toList) := by
      simp
    rw [List.singleton_append, step_cons,
      Demand.ofToken_long htoken hname (by rwa [String.ofList_toList]) hvalue]
    simp [Match.long]
  | @longSeparate name e value he hvalue hname hne =>
    refine stream_of_await ?_
    have htoken : ("--" ++ name).toList = '-' :: '-' :: name.toList := by
      simp
    rw [List.cons_append, List.singleton_append, step_cons,
      Demand.ofToken_body htoken (by simpa using hne),
      Demand.ofLong_await (by rwa [String.ofList_toList]) hvalue hname, String.ofList_toList]
  | @run c cs events args hc h =>
    have htoken : (String.ofList ('-' :: c :: cs)).toList = '-' :: c :: cs := String.toList_ofList
    have hstep := step_cons t next (String.ofList ('-' :: c :: cs)) (args ++ rest)
    rw [Demand.ofToken_short htoken hc] at hstep
    rw [List.cons_append, stream_of_runPiece h rfl hstep, List.length_cons, Nat.add_right_comm,
      Nat.add_assoc]

/-- **What the pieces of a line come to is read from it**, and then what follows. -/
theorem Pieces.stream {t : Table ι} {next : Nat} {events : List (Event ι)} {args : List String}
    (h : Pieces t next events args) (rest : List String) :
    (⟨next, args ++ rest, none⟩ : Cursor).stream t =
      .after events ((⟨next + args.length, rest, none⟩ : Cursor).stream t) := by
  induction h with
  | nil index => rfl
  | cons h _ ih =>
    rw [List.append_assoc, Cursor.stream_of_piece h, ih, List.length_append, Nat.add_assoc]
    simp [Stream.after]

/-! ## From the line to its pieces -/

namespace Demand

/-- Whether a demand is that of a whole argument: together with the next one, if that is awaited,
the argument comes to what is delivered. -/
inductive AsksFor (t : Table ι) (index : Nat) (token : String) : Demand ι → Prop where
  | deliver {event : Event ι} (h : Piece t index [event] [token]) :
      AsksFor t index token (.deliver event none)
  | await {id : ι} {name : String} (h : ∀ value,
      Piece t index [.option ⟨id, name, some (.whole (index + 1) value)⟩] [token, value]) :
      AsksFor t index token (.await id name)

variable {t : Table ι} {index : Nat} {token : String}

theorem asksFor_ofLong {body : List Char} (htoken : token.toList = '-' :: '-' :: body)
    (hbody : body ≠ []) : (ofLong t index token body).AsksFor t index token := by
  have hignored (hnone : t.findLong? (String.ofList (body.takeWhile (· ≠ '='))) = none) :
      t.Ignores token := by
    intro c cs hcs
    rw [htoken] at hcs
    simp only [List.cons.injEq, true_and] at hcs
    obtain ⟨rfl, rfl⟩ := hcs
    exact ⟨rfl, fun _ => hnone⟩
  have hstring {cs : List Char} (h : body = cs) : token = "--" ++ String.ofList cs := by
    subst h
    rw [← String.toList_inj, htoken]
    simp
  unfold ofLong
  cases hcut : cutFirst '=' body with
  | none =>
    have hname : '=' ∉ (String.ofList body).toList := by
      rw [String.toList_ofList]
      exact cutFirst_eq_none.1 hcut
    have hne : String.ofList body ≠ "" := by simpa using hbody
    dsimp only
    cases he : t.findLong? (String.ofList body) with
    | none => exact .deliver (.ignored (hignored (by rw [takeWhile_of_cutFirst_eq_none hcut, he])))
    | some e =>
      dsimp only
      rw [hstring rfl]
      split
      · next hvalue => exact .await fun value => .longSeparate value he hvalue hname hne
      · next hvalue =>
        have hpiece : Piece t index _ ["--" ++ String.ofList body ++ ""] :=
          .longFlag he (by simpa using hvalue) hname (.inl ⟨rfl, hne⟩)
        rw [String.append_empty] at hpiece
        exact .deliver hpiece
  | some cut =>
    obtain ⟨name, value⟩ := cut
    obtain ⟨hcs, hname⟩ := cutFirst_eq_some.1 hcut
    have hname' : '=' ∉ (String.ofList name).toList := by rwa [String.toList_ofList]
    have htoken' : token = "--" ++ String.ofList name ++ "=" ++ String.ofList value := by
      rw [hstring hcs, ← String.toList_inj]
      simp
    dsimp only
    cases he : t.findLong? (String.ofList name) with
    | none => exact .deliver (.ignored (hignored (by rw [takeWhile_of_cutFirst hcut, he])))
    | some e =>
      dsimp only
      rw [htoken']
      split
      · next hvalue =>
        have hpiece : Piece t index _
            ["--" ++ String.ofList name ++ "=" ++ String.ofList value] :=
          .longInline he hvalue hname'
        rw [String.toList_ofList] at hpiece
        exact .deliver hpiece
      · next hvalue =>
        have hpiece : Piece t index _
            ["--" ++ String.ofList name ++ ("=" ++ String.ofList value)] :=
          .longFlag he (by simpa using hvalue) hname' (.inr ⟨String.ofList value, rfl⟩)
        rw [← String.append_assoc] at hpiece
        exact .deliver hpiece

/-- An argument that is no run has its demand by itself. -/
theorem asksFor_ofToken (hrun : ∀ head tail, token.toList = '-' :: head :: tail → head = '-') :
    (ofToken t index token).AsksFor t index token := by
  unfold ofToken
  split
  · next htoken =>
    refine .deliver (.ignored fun c body hbody => ?_)
    rw [htoken] at hbody
    cases hbody
    exact ⟨rfl, fun hne => absurd rfl hne⟩
  · next body hbody htoken => exact asksFor_ofLong htoken hbody
  · next head tail _ hhead htoken => exact absurd (hrun head tail htoken) hhead
  · next hdash => exact .deliver (.ignored fun c body hbody => (hdash c body hbody).elim)

end Demand

namespace Cursor

/-- What is still to be read from a cursor: the pieces of the unread arguments, after the rest of
the unfinished run. -/
inductive Reads (t : Table ι) : Cursor → List (Event ι) → Prop where
  | between {next : Nat} {events : List (Event ι)} {unread : List String}
      (h : Pieces t next events unread) : Reads t ⟨next, unread, none⟩ events
  | within {next : Nat} {r : Run} {events events' : List (Event ι)} {args rest : List String}
      (hnext : r.index + 1 = next)
      (h : RunPiece t r.index r.token r.offset (r.head :: r.tail) events args)
      (hrest : Pieces t (next + args.length) events' rest) :
      Reads t ⟨next, args ++ rest, some r⟩ (events ++ events')

/-- A cursor between two arguments has pieces to read. -/
theorem Reads.pieces {t : Table ι} {c : Cursor} {events : List (Event ι)} (h : Reads t c events)
    (hrun : c.run = none) : Pieces t c.next events c.unread := by
  cases h with
  | between h => exact h
  | within => cases hrun

section Step

variable {t : Table ι} {next : Nat} {unread : List String} {event : Event ι}
  {events : List (Event ι)} {c' : Cursor}

theorem reads_of_ofRun {r : Run} (hnext : r.index + 1 = next)
    (h : (⟨next, unread, none⟩ : Cursor).meet (.ofRun t r) = (.ok (some event), c'))
    (hc' : Reads t c' events) : Reads t ⟨next, unread, some r⟩ (event :: events) := by
  obtain ⟨index, token, offset, head, tail⟩ := r
  cases he : t.findShort? head with
  | none =>
    rw [Demand.ofRun_of_none he] at h
    cases h
    exact .within hnext (.unknown he) (hc'.pieces rfl)
  | some e =>
    cases hvalue : e.takesValue with
    | true =>
      by_cases htail : tail = []
      · subst htail
        rw [Demand.ofRun_await he hvalue rfl] at h
        cases unread with
        | nil => cases h
        | cons arg unread =>
          cases h
          subst hnext
          exact .within (r := ⟨_, _, _, _, _⟩) rfl (.separate arg he hvalue) (hc'.pieces rfl)
      · rw [Demand.ofRun_value he hvalue htail] at h
        cases h
        exact .within hnext (.inline he hvalue htail) (hc'.pieces rfl)
    | false =>
      cases tail with
      | nil =>
        rw [Demand.ofRun_last he hvalue rfl] at h
        cases h
        exact .within hnext (.last he hvalue) (hc'.pieces rfl)
      | cons head' tail =>
        rw [Demand.ofRun_flag he hvalue rfl] at h
        cases h
        -- This alone leaves a run unfinished, and what is read after it begins with its rest.
        cases hc' with
        | within _ hrun hrest =>
          exact .within hnext (.flag he hvalue (List.cons_ne_nil head' tail) hrun) hrest

theorem pieces_of_asksFor {index : Nat} {token : String} {d : Demand ι}
    (hd : d.AsksFor t index token)
    (h : (⟨index + 1, unread, none⟩ : Cursor).meet d = (.ok (some event), c'))
    (hc' : Reads t c' events) : Pieces t index (event :: events) (token :: unread) := by
  cases hd with
  | deliver hpiece =>
    cases h
    exact .cons hpiece (hc'.pieces rfl)
  | await hpiece =>
    cases unread with
    | nil => cases h
    | cons arg unread =>
      cases h
      exact .cons (hpiece arg) (hc'.pieces rfl)

theorem pieces_of_ofToken {index : Nat} {token : String}
    (h : (⟨index + 1, unread, none⟩ : Cursor).meet (.ofToken t index token) =
      (.ok (some event), c'))
    (hc' : Reads t c' events) : Pieces t index (event :: events) (token :: unread) := by
  by_cases hrun : ∃ head tail, token.toList = '-' :: head :: tail ∧ head ≠ '-'
  · obtain ⟨head, tail, htoken, hhead⟩ := hrun
    obtain rfl : token = String.ofList ('-' :: head :: tail) := by
      rw [← htoken, String.ofList_toList]
    rw [Demand.ofToken_short htoken hhead] at h
    -- A run may come to many events, so it is read like the rest of one and then made a piece.
    have hreads := reads_of_ofRun rfl h hc'
    generalize event :: events = all at hreads ⊢
    cases hreads with
    | within _ hrun hrest =>
      rw [Nat.add_right_comm] at hrest
      exact Pieces.cons (.run hhead hrun) hrest
  · refine pieces_of_asksFor (Demand.asksFor_ofToken fun head tail htoken => ?_) h hc'
    exact Decidable.byContradiction fun hhead => hrun ⟨head, tail, htoken, hhead⟩

theorem reads_of_step {c : Cursor} (hc : ∀ r, c.run = some r → r.index + 1 = c.next)
    (h : c.step t = (.ok (some event), c')) (hc' : Reads t c' events) :
    Reads t c (event :: events) := by
  obtain ⟨next, unread, _ | r⟩ := c
  · cases unread with
    | nil => cases h
    | cons token unread =>
      rw [step_cons] at h
      exact .between (pieces_of_ofToken h hc')
  · rw [step_run] at h
    exact reads_of_ofRun (hc r rfl) h hc'

end Step

/-- What is read from a cursor on a line that misses no value is what is still to be read. -/
theorem reads_stream {t : Table ι} {args : List String} {c : Cursor} (hc : c.On args)
    (h : (c.stream t).missing = none) : Reads t c (c.stream t).events := by
  fun_induction Cursor.stream t c with
  | case1 c u hstep => cases h
  | case2 c hstep =>
    obtain ⟨next, unread, run⟩ := c
    obtain ⟨rfl, rfl⟩ := unreadSize_eq_zero.1 (step_eq_done.1 hstep)
    exact .between (.nil next)
  | case3 c event hstep rest ih =>
    have hnext : c.step t = (.ok (some event), (c.step t).2) := Prod.ext hstep rfl
    -- That the cursor is on the line says that a run is in the argument before the next one.
    exact reads_of_step (fun r hr => (hc.run r hr).next) hnext (ih (hc.step t) h)

end Cursor

/-- **A line is read to its end exactly if it falls into pieces**, which are what is read. -/
theorem Table.read_eq_iff_pieces {t : Table ι} {args : List String} {start : Nat}
    {events : List (Event ι)} :
    t.read args start = ⟨events, none⟩ ↔ Pieces t start events (args.drop start) := by
  constructor
  · intro h
    have hreads := Cursor.reads_stream (Cursor.on_ofArgs args start) (congrArg Stream.missing h)
    have hevents : ((Cursor.ofArgs args start).stream t).events = events :=
      congrArg Stream.events h
    rw [hevents] at hreads
    exact hreads.pieces rfl
  · intro h
    have hstream := h.stream []
    rw [List.append_nil, Cursor.stream_of_done (c := ⟨_, [], none⟩) rfl] at hstream
    show (Cursor.ofArgs args start).stream t = _
    simpa [Stream.after, Cursor.ofArgs] using hstream

/-! ## From step to step -/

namespace Cursor

variable {t : Table ι}

theorem total_meet (next : Nat) (unread : List String) (d : Demand ι) :
    ((⟨next, unread, none⟩ : Cursor).meet d).2.next +
      ((⟨next, unread, none⟩ : Cursor).meet d).2.unread.length = next + unread.length := by
  cases d with
  | deliver event run => rfl
  | await id name =>
    cases unread with
    | nil => rfl
    | cons arg unread =>
      simp only [meet, takeNext, List.length_cons]
      omega

/-- The arguments before the next one and the unread ones together stay the same. -/
theorem total_step (t : Table ι) (c : Cursor) :
    (c.step t).2.next + (c.step t).2.unread.length = c.next + c.unread.length := by
  obtain ⟨next, unread, _ | r⟩ := c
  · cases unread with
    | nil => rfl
    | cons token unread =>
      rw [step_cons, total_meet]
      simp only [List.length_cons]
      omega
  · rw [step_run, total_meet]

theorem total_afterSteps (tables : Nat → Table ι) (c : Cursor) (n : Nat) :
    (c.afterSteps tables n).next + (c.afterSteps tables n).unread.length =
      c.next + c.unread.length := by
  induction n with
  | zero => rfl
  | succ n ih => exact (total_step (tables n) _).trans ih

theorem next_meet_le (next : Nat) (unread : List String) (d : Demand ι) :
    ((⟨next, unread, none⟩ : Cursor).meet d).2.next ≤ next + 1 := by
  cases d with
  | deliver event run => exact Nat.le_succ next
  | await id name =>
    cases unread with
    | nil => exact Nat.le_succ next
    | cons arg unread => exact Nat.le_refl _

/-- A step within a run takes at most one argument. -/
theorem next_step_of_run {c : Cursor} {r : Run} (hr : c.run = some r) :
    c.next ≤ (c.step t).2.next ∧ (c.step t).2.next ≤ c.next + 1 := by
  obtain ⟨next, unread, run⟩ := c
  cases hr
  rw [step_run]
  exact ⟨next_le_meet .., next_meet_le ..⟩

/-- A step between two arguments takes one or two. -/
theorem next_step_of_run_eq_none {c : Cursor} {event : Event ι} (hrun : c.run = none)
    (h : (c.step t).1 = .ok (some event)) :
    c.next + 1 ≤ (c.step t).2.next ∧ (c.step t).2.next ≤ c.next + 2 := by
  obtain ⟨next, unread, run⟩ := c
  cases hrun
  cases unread with
  | nil => cases h
  | cons token unread =>
    rw [step_cons]
    exact ⟨next_le_meet .., next_meet_le ..⟩

theorem afterSteps_succ (t : Table ι) (c : Cursor) (n : Nat) :
    c.afterSteps (fun _ => t) (n + 1) = (c.step t).2.afterSteps (fun _ => t) n := by
  induction n with
  | zero => rfl
  | succ n ih => exact congrArg (fun c : Cursor => (c.step t).2) ih

/-- What is read from a cursor is what its steps deliver, one after the other. -/
theorem step_afterSteps {c : Cursor} {events : List (Event ι)} (h : c.stream t = ⟨events, none⟩) :
    (∀ k (hk : k < events.length),
      ((c.afterSteps (fun _ => t) k).step t).1 = .ok (some events[k])) ∧
    ((c.afterSteps (fun _ => t) events.length).step t).1 = .ok none := by
  induction events generalizing c with
  | nil =>
    refine ⟨fun k hk => absurd hk (Nat.not_lt_zero k), ?_⟩
    rw [stream] at h
    split at h
    · cases h
    · assumption
    · cases h
  | cons event events ih =>
    rw [stream] at h
    split at h
    · cases h
    · cases h
    · next event' hstep =>
      simp only [Stream.mk.injEq, List.cons.injEq] at h
      obtain ⟨⟨rfl, hevents⟩, hmissing⟩ := h
      obtain ⟨hsteps, hdone⟩ := ih (c := (c.step t).2) (by rw [← hevents, ← hmissing])
      constructor
      · intro k hk
        cases k with
        | zero => exact hstep
        | succ k =>
          rw [afterSteps_succ]
          exact hsteps k (Nat.lt_of_succ_lt_succ hk)
      · rw [List.length_cons, afterSteps_succ]
        exact hdone

end Cursor

/-- The cursor after so many steps over a line by one table. -/
def Table.cursorAfter (t : Table ι) (args : List String) (start : Nat) : Nat → Cursor :=
  (Cursor.ofArgs args start).afterSteps fun _ => t

/-- Whether reading goes over a line without gaps, and delivers the pieces of the line. -/
structure Table.Tiles (t : Table ι) (args : List String) (start : Nat) (events : List (Event ι)) :
    Prop where
  /-- The steps deliver the events one after the other. -/
  step : ∀ k (hk : k < events.length),
    ((t.cursorAfter args start k).step t).1 = .ok (some events[k])
  /-- Then they come to the end. -/
  done : ((t.cursorAfter args start events.length).step t).1 = .ok none
  /-- The first step starts at the first argument. -/
  first : (t.cursorAfter args start 0).next = start
  /-- A step within a run of short options takes no argument or one. -/
  within : ∀ k < events.length, (t.cursorAfter args start k).run.isSome = true →
    (t.cursorAfter args start (k + 1)).next ∈
      [(t.cursorAfter args start k).next, (t.cursorAfter args start k).next + 1]
  /-- Any other takes one argument or two. -/
  between : ∀ k < events.length, (t.cursorAfter args start k).run.isSome = false →
    (t.cursorAfter args start (k + 1)).next ∈
      [(t.cursorAfter args start k).next + 1, (t.cursorAfter args start k).next + 2]
  /-- The last one ends behind the last argument. -/
  last : (t.cursorAfter args start events.length).next = max start args.length
  /-- The arguments are made of what is delivered. -/
  pieces : Pieces t start events (args.drop start)

/-- **Reading goes over a line without gaps, and delivers the pieces of the line**, if the line is
read to its end with no value missing. -/
theorem Table.read_tiles_line {t : Table ι} {args : List String} {start : Nat}
    {events : List (Event ι)} (h : t.read args start = ⟨events, none⟩) :
    t.Tiles args start events := by
  obtain ⟨hsteps, hdone⟩ := Cursor.step_afterSteps h
  refine ⟨hsteps, hdone, rfl, fun k hk hrun => ?_, fun k hk hrun => ?_, ?_,
    Table.read_eq_iff_pieces.1 h⟩
  · obtain ⟨r, hr⟩ := Option.isSome_iff_exists.1 hrun
    obtain ⟨hle, hge⟩ := Cursor.next_step_of_run (t := t) hr
    show ((t.cursorAfter args start k).step t).2.next ∈ _
    simp only [List.mem_cons, List.not_mem_nil, or_false]
    omega
  · have hnone : (t.cursorAfter args start k).run = none :=
      Option.not_isSome_iff_eq_none.1 (by simp [hrun])
    obtain ⟨hle, hge⟩ := Cursor.next_step_of_run_eq_none hnone (hsteps k hk)
    show ((t.cursorAfter args start k).step t).2.next ∈ _
    simp only [List.mem_cons, List.not_mem_nil, or_false]
    omega
  · have htotal := Cursor.total_afterSteps (fun _ => t) (Cursor.ofArgs args start) events.length
    have hend := (Cursor.unreadSize_eq_zero.1 (Cursor.step_eq_done.1 hdone)).1
    have hlength : (Cursor.ofArgs args start).unread.length = args.length - start :=
      List.length_drop
    rw [hend, hlength] at htotal
    show ((Cursor.ofArgs args start).afterSteps (fun _ => t) events.length).next = _
    simp only [List.length_nil, Cursor.ofArgs] at htotal ⊢
    omega

/-- The line `prlctl list -aoid --all=no -nx --sort -a vm1` falls into pieces of all kinds: a run
that ends in a value, a flag with something behind a `=`, a run that ends at a character that is no
option, a value that looks like an option, and an argument that is none. -/
theorem list_line_is_tiled :
    CommandTable.list.Tiles
      ["prlctl", "list", "-aoid", "--all=no", "-nx", "--sort", "-a", "vm1"] 2
      [.option ⟨.setting (.mark .listAll), "-a", none⟩,
        .option ⟨.setting (.text .listFields), "-o", some ⟨"id", ⟨2, 3, 5⟩⟩⟩,
        .option ⟨.setting (.mark .listAll), "--all", none⟩,
        .option ⟨.setting (.mark .listName), "-n", none⟩, .unknown 4 "-nx",
        .option ⟨.setting (.text .listSort), "--sort", some ⟨"-a", ⟨6, 0, 2⟩⟩⟩,
        .unknown 7 "vm1"] :=
  Table.read_tiles_line (Table.read_eq_of_streamWithin (n := 8) (by rfl))

end VmControl.Options
