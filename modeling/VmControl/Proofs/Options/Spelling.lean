import Mathlib.Data.List.Forall2
import Mathlib.Logic.Relation
import VmControl.Proofs.Options.Pieces

/-!
# Ways to spell an option

A value can stand in the argument of its option or in the next one, and options without a value can
stand in one run or by themselves.  It makes no difference to what is read, but for where it stands.

## Main definitions

* `Spelling`: two spellings of the same options.
* `Respelling`: two lines that differ in the spelling of some options.
* `Event.said`: what is delivered, without its place.

## Main statements

* `Cursor.StepSame.stream`: what is read from two cursors is the same if a step comes to the same.
* `Spelling.stream`: two spellings are read as the same.
* `Table.said_of_respelled`: so are two lines of which one is the other respelled.
-/

namespace VmControl.Options

open VmControl.Text

variable {ι : Type}

/-! ## The same at another place -/

/-- Whether two events are the same but for their places, with related places of arguments that are
no options. -/
inductive Event.Same (R : Nat → Nat → Prop) : Event ι → Event ι → Prop where
  | option {m m' : Match ι} (h : m.occurrence = m'.occurrence) : Same R (.option m) (.option m')
  | unknown {i i' : Nat} {token : String} (h : R i i') :
      Same R (.unknown i token) (.unknown i' token)

/-- Whether two streams are the same but for places. -/
structure Stream.Same (R : Nat → Nat → Prop) (s s' : Stream ι) : Prop where
  /-- The events are the same in order. -/
  events : List.Forall₂ (Event.Same R) s.events s'.events
  /-- The same value is missing. -/
  missing : s.missing = s'.missing

/-- Whether two runs have the same characters left, in the same arguments at related places. -/
structure Run.Same (R : Nat → Nat → Prop) (r r' : Run) : Prop where
  index : R r.index r'.index
  token : r.token = r'.token
  head : r.head = r'.head
  tail : r.tail = r'.tail

/-- Whether two demands are the same but for places. -/
inductive Demand.Same (R : Nat → Nat → Prop) : Demand ι → Demand ι → Prop where
  | deliver {event event' : Event ι} {run run' : Option Run} (h : event.Same R event')
      (hrun : Option.Rel (Run.Same R) run run') :
      Same R (.deliver event run) (.deliver event' run')
  | await (id : ι) (name : String) : Same R (.await id name) (.await id name)

namespace Demand

variable {R : Nat → Nat → Prop} {t : Table ι}

theorem same_deliver_option {m m' : Match ι} (h : m.occurrence = m'.occurrence) :
    Same R (.deliver (.option m) none) (.deliver (.option m') none) :=
  .deliver (.option h) .none

theorem same_deliver_unknown {i i' : Nat} {token : String} (h : R i i') :
    Same R (.deliver (.unknown i token : Event ι) none) (.deliver (.unknown i' token) none) :=
  .deliver (.unknown h) .none

/-- A known option at the end of its run does not depend on the characters before it. -/
theorem same_ofRun_end {r r' : Run} {e : Entry ι} (he : t.findShort? r.head = some e)
    (hend : e.takesValue = true ∨ r.tail = []) (hhead : r.head = r'.head)
    (htail : r.tail = r'.tail) : Same R (ofRun t r) (ofRun t r') := by
  have he' : t.findShort? r'.head = some e := by rw [← hhead, he]
  cases hvalue : e.takesValue with
  | true =>
    by_cases hnil : r.tail = []
    · rw [ofRun_await he hvalue hnil, ofRun_await he' hvalue (htail ▸ hnil), hhead]
      exact .await ..
    · rw [ofRun_value he hvalue hnil, ofRun_value he' hvalue (htail ▸ hnil), hhead, htail]
      exact same_deliver_option rfl
  | false =>
    have hnil : r.tail = [] := hend.resolve_left (by simp [hvalue])
    rw [ofRun_last he hvalue hnil, ofRun_last he' hvalue (htail ▸ hnil), hhead]
    exact same_deliver_option rfl

theorem same_ofRun {r r' : Run} (h : r.Same R r') : Same R (ofRun t r) (ofRun t r') := by
  obtain ⟨index, token, offset, head, tail⟩ := r
  obtain ⟨index', token', offset', head', tail'⟩ := r'
  obtain ⟨hindex, rfl, rfl, rfl⟩ := h
  cases he : t.findShort? head with
  | none =>
    rw [ofRun_of_none he, ofRun_of_none he]
    exact same_deliver_unknown hindex
  | some e =>
    cases hvalue : e.takesValue with
    | true => exact same_ofRun_end he (.inl hvalue) rfl rfl
    | false =>
      cases tail with
      | nil => exact same_ofRun_end he (.inr rfl) rfl rfl
      | cons head' tail' =>
        rw [ofRun_flag he hvalue rfl, ofRun_flag he hvalue rfl]
        exact .deliver (.option rfl) (.some ⟨hindex, rfl, rfl, rfl⟩)

theorem same_ofLong {index index' : Nat} (h : R index index') (token : String)
    (body : List Char) : Same R (ofLong t index token body) (ofLong t index' token body) := by
  unfold ofLong
  dsimp only
  split
  · exact same_deliver_unknown h
  · split
    · split
      · exact same_deliver_option rfl
      · exact .await ..
    · exact same_deliver_option rfl

/-- What an argument asks for does not depend on its place. -/
theorem same_ofToken {index index' : Nat} (h : R index index') (token : String) :
    Same R (ofToken t index token) (ofToken t index' token) := by
  unfold ofToken
  split
  · exact same_deliver_unknown h
  · exact same_ofLong h token _
  · exact same_ofRun ⟨h, rfl, rfl, rfl⟩
  · exact same_deliver_unknown h

end Demand

namespace Cursor

variable {R : Nat → Nat → Prop} {t : Table ι} {n n' : Nat}

/-- Whether two cursors have the same to read, as far from `n` as from `n'`. -/
inductive Same (R : Nat → Nat → Prop) (n n' : Nat) : Cursor → Cursor → Prop where
  | mk (k : Nat) (unread : List String) {run run' : Option Run}
      (hrun : Option.Rel (Run.Same R) run run') :
      Same R n n' ⟨n + k, unread, run⟩ ⟨n' + k, unread, run'⟩

/-- Whether two steps come to the same. -/
inductive StepSame (R : Nat → Nat → Prop) (n n' : Nat) :
    Except MissingValue (Option (Event ι)) × Cursor →
    Except MissingValue (Option (Event ι)) × Cursor → Prop where
  | missing (u : MissingValue) (c c' : Cursor) : StepSame R n n' (.error u, c) (.error u, c')
  | done (c c' : Cursor) : StepSame R n n' (.ok none, c) (.ok none, c')
  | event {event event' : Event ι} {c c' : Cursor} (h : event.Same R event')
      (hc : Same R n n' c c') : StepSame R n n' (.ok (some event), c) (.ok (some event'), c')

theorem same_meet {d d' : Demand ι} (h : d.Same R d') (k : Nat) (unread : List String) :
    StepSame R n n' ((⟨n + k, unread, none⟩ : Cursor).meet d)
      ((⟨n' + k, unread, none⟩ : Cursor).meet d') := by
  cases h with
  | deliver h hrun => exact .event h (.mk k unread hrun)
  | await id name =>
    cases unread with
    | nil => exact .missing ..
    | cons arg unread => exact .event (.option rfl) (.mk (k + 1) unread .none)

variable (hR : ∀ k, R (n + k) (n' + k))

include hR

theorem Same.step {c c' : Cursor} (h : Same R n n' c c') :
    StepSame R n n' (c.step t) (c'.step t) := by
  obtain ⟨k, unread, hrun⟩ := h
  cases hrun with
  | some hrun =>
    rw [step_run, step_run]
    exact same_meet (Demand.same_ofRun hrun) k unread
  | none =>
    cases unread with
    | nil => exact .done ..
    | cons token unread =>
      rw [step_cons, step_cons]
      exact same_meet (Demand.same_ofToken (hR k) token) (k + 1) unread

/-- **What is read from two cursors is the same if a step of them comes to the same.** -/
theorem StepSame.stream {c c' : Cursor} (h : StepSame R n n' (c.step t) (c'.step t)) :
    Stream.Same R (c.stream t) (c'.stream t) := by
  -- The induction follows the first cursor.  The other one is carried along: if their steps come to
  -- the same they leave cursors with the same to read, and so do the next steps.
  generalize hstep' : c'.step t = out' at h
  fun_induction Cursor.stream t c generalizing c' out' with
  | case1 c u hstep =>
    rw [show c.step t = (.error u, (c.step t).2) from Prod.ext hstep rfl] at h
    cases h
    rw [stream_of_missing hstep']
    exact ⟨.nil, rfl⟩
  | case2 c hstep =>
    rw [show c.step t = (.ok none, (c.step t).2) from Prod.ext hstep rfl] at h
    cases h
    rw [stream_of_done hstep']
    exact ⟨.nil, rfl⟩
  | case3 c event hstep rest =>
    rename_i ih
    rw [show c.step t = (.ok (some event), (c.step t).2) from Prod.ext hstep rfl] at h
    cases h with
    | event hevent hnext =>
      obtain ⟨hevents, hmissing⟩ := ih _ rfl (hnext.step hR)
      rw [stream_of_step hstep']
      exact ⟨.cons hevent hevents, hmissing⟩

/-- The same arguments at two places are read as the same. -/
theorem same_stream_drop (rest : List String) :
    Stream.Same R ((⟨n, rest, none⟩ : Cursor).stream t) ((⟨n', rest, none⟩ : Cursor).stream t) :=
  StepSame.stream hR ((Same.mk 0 rest .none).step hR)

end Cursor

theorem Event.same_refl {R : Nat → Nat → Prop} (hR : ∀ i, R i i) (event : Event ι) :
    event.Same R event := by
  cases event with
  | option m => exact .option rfl
  | unknown i token => exact .unknown (hR i)

theorem Stream.Same.after {R : Nat → Nat → Prop} {events events' : List (Event ι)}
    {s s' : Stream ι} (hevents : List.Forall₂ (Event.Same R) events events') (h : s.Same R s') :
    Stream.Same R (s.after events) (s'.after events') :=
  ⟨List.rel_append hevents h.events, h.missing⟩

theorem exists_of_same_map {R : Nat → Nat → Prop} {ms : List (Match ι)} {events : List (Event ι)}
    (h : List.Forall₂ (Event.Same R) (ms.map .option) events) :
    ∃ ms' : List (Match ι), events = ms'.map .option ∧
      ms'.map Match.occurrence = ms.map Match.occurrence := by
  induction ms generalizing events with
  | nil =>
    cases h
    exact ⟨[], rfl, rfl⟩
  | cons m ms ih =>
    cases h with
    | @cons _ event _ _ hevent hrest =>
      obtain ⟨ms', rfl, hms⟩ := ih hrest
      cases hevent with
      | @option _ m' hm => exact ⟨m' :: ms', rfl, by rw [List.map_cons, List.map_cons, hm, hms]⟩

/-- Lines that are the same but for places consist of the same options. -/
theorem Stream.Says.same {R : Nat → Nat → Prop} {s s' : Stream ι} {os : List (Occurrence ι)}
    (hs : s.Says os) (h : s.Same R s') : s'.Says os := by
  obtain ⟨ms, rfl, rfl⟩ := hs
  obtain ⟨hevents, hmissing⟩ := h
  obtain ⟨ms', hms, hoccurrences⟩ := exists_of_same_map hevents
  obtain ⟨events, missing⟩ := s'
  obtain rfl : events = ms'.map .option := hms
  obtain rfl : none = missing := hmissing
  exact ⟨ms', rfl, hoccurrences⟩

theorem Stream.Says.eq_options {s : Stream ι} {os : List (Occurrence ι)} (h : s.Says os) :
    os = s.options.map Match.occurrence := by
  obtain ⟨ms, rfl, rfl⟩ := h
  simp [Stream.options, List.filterMap_map]

/-- Options before others. -/
theorem Stream.Says.after {s : Stream ι} {os : List (Occurrence ι)} (h : s.Says os)
    (ms : List (Match ι)) :
    (s.after (ms.map .option)).Says (ms.map Match.occurrence ++ os) := by
  obtain ⟨ms', rfl, rfl⟩ := h
  exact ⟨ms ++ ms', by simp [Stream.after], by simp⟩

/-- What follows in a line of options is a line of options. -/
theorem Stream.exists_says_of_after {s : Stream ι} {events : List (Event ι)}
    {os : List (Occurrence ι)} (h : (s.after events).Says os) : ∃ os', s.Says os' := by
  obtain ⟨ms, hms, -⟩ := h
  obtain ⟨later, missing⟩ := s
  obtain ⟨hevents, rfl⟩ := (Stream.mk.injEq ..).mp hms
  obtain ⟨_, ms', -, -, hms'⟩ := List.append_eq_map_iff.1 hevents
  exact ⟨_, ms', by rw [hms'], rfl⟩

/-! ## Spellings -/

/-- A run of known options, and an argument for each of them.  None of the options is a dash, which
would not be an option by itself.  A value stays with its option. -/
inductive Cluster (t : Table ι) : List Char → List String → Prop where
  | last {c : Char} {e : Entry ι} (he : t.findShort? c = some e) (hvalue : e.takesValue = false)
      (hc : c ≠ '-') : Cluster t [c] [String.ofList ['-', c]]
  | value {c : Char} {value : List Char} {e : Entry ι} (he : t.findShort? c = some e)
      (hvalue : e.takesValue = true) (hc : c ≠ '-') :
      Cluster t (c :: value) [String.ofList ('-' :: c :: value)]
  | flag {c : Char} {cs : List Char} {args : List String} {e : Entry ι}
      (he : t.findShort? c = some e) (hvalue : e.takesValue = false) (hc : c ≠ '-')
      (h : Cluster t cs args) : Cluster t (c :: cs) (String.ofList ['-', c] :: args)

theorem Cluster.exists_cons {t : Table ι} {cs : List Char} {args : List String}
    (h : Cluster t cs args) : ∃ head tail, cs = head :: tail ∧ head ≠ '-' := by
  cases h with
  | last he hvalue hc => exact ⟨_, _, rfl, hc⟩
  | value he hvalue hc => exact ⟨_, _, rfl, hc⟩
  | flag he hvalue hc h => exact ⟨_, _, rfl, hc⟩

/-- Two spellings of the same options. -/
inductive Spelling (t : Table ι) : List String → List String → Prop where
  /-- The value of a long option can stand behind a `=`, or in the next argument. -/
  | long {name : String} (value : String) {e : Entry ι} (he : t.findLong? name = some e)
      (hvalue : e.takesValue = true) (hname : '=' ∉ name.toList) (hne : name ≠ "") :
      Spelling t ["--" ++ name ++ "=" ++ value] ["--" ++ name, value]
  /-- So can that of a short option stand right behind it, unless it is empty. -/
  | short {c : Char} (value : String) {e : Entry ι} (he : t.findShort? c = some e)
      (hvalue : e.takesValue = true) (hc : c ≠ '-') (hne : value ≠ "") :
      Spelling t ["-" ++ String.singleton c ++ value] ["-" ++ String.singleton c, value]
  /-- The options of a run can stand by themselves. -/
  | cluster {cs : List Char} {args : List String} (h : Cluster t cs args) :
      Spelling t [String.ofList ('-' :: cs)] args

namespace Cursor

variable {R : Nat → Nat → Prop} {t : Table ι}

theorem step_short {head : Char} (hhead : head ≠ '-') (n : Nat) (tail : List Char)
    (rest : List String) :
    (⟨n, String.ofList ('-' :: head :: tail) :: rest, none⟩ : Cursor).step t =
      (⟨n + 1, rest, none⟩ : Cursor).meet
        (.ofRun t ⟨n, String.ofList ('-' :: head :: tail), 1, head, tail⟩) := by
  rw [step_cons, Demand.ofToken_short String.toList_ofList hhead]

/-- A step that reads a known option at the end of its run. -/
theorem same_stream_end {r r' : Run} {e : Entry ι} {rest : List String} {n n' : Nat}
    {c c' : Cursor} (hR : ∀ k, R (n + k) (n' + k))
    (hc : c.step t = (⟨n, rest, none⟩ : Cursor).meet (.ofRun t r))
    (hc' : c'.step t = (⟨n', rest, none⟩ : Cursor).meet (.ofRun t r'))
    (he : t.findShort? r.head = some e) (hend : e.takesValue = true ∨ r.tail = [])
    (hhead : r.head = r'.head) (htail : r.tail = r'.tail) :
    Stream.Same R (c.stream t) (c'.stream t) := by
  refine StepSame.stream hR ?_
  rw [hc, hc']
  exact same_meet (Demand.same_ofRun_end he hend hhead htail) 0 rest

/-- A step that reads from a run is the first of those that read the options of the run, which are
the same if they stand by themselves. -/
theorem same_stream_cluster {cs : List Char} {args rest : List String} {n n' index offset : Nat}
    {token : String} {head : Char} {tail : List Char} {c : Cursor} (h : Cluster t cs args)
    (hcs : head :: tail = cs) (hR : ∀ k, R (n + k) (n' + args.length + k))
    (hc : c.step t =
      (⟨n, rest, none⟩ : Cursor).meet (.ofRun t ⟨index, token, offset, head, tail⟩)) :
    Stream.Same R (c.stream t) ((⟨n', args ++ rest, none⟩ : Cursor).stream t) := by
  induction h generalizing n' head tail offset c with
  | last he hvalue hdash =>
    obtain ⟨rfl, rfl⟩ := List.cons.inj hcs
    exact same_stream_end hR hc (step_short hdash n' _ rest) he (.inr rfl) rfl rfl
  | value he hvalue hdash =>
    obtain ⟨rfl, rfl⟩ := List.cons.inj hcs
    exact same_stream_end hR hc (step_short hdash n' _ rest) he (.inl hvalue) rfl rfl
  | @flag _ _ args _ he hvalue hdash h ih =>
    obtain ⟨rfl, rfl⟩ := List.cons.inj hcs
    have hstep := step_short (t := t) hdash n' [] (args ++ rest)
    rw [Demand.ofRun_last he hvalue rfl] at hstep
    obtain ⟨head', tail', rfl, -⟩ := h.exists_cons
    rw [Demand.ofRun_flag he hvalue rfl] at hc
    -- One cursor is within the run now, and the other at the argument with its next option.
    rw [List.cons_append, stream_of_deliver hc, stream_of_deliver hstep]
    refine (ih rfl (fun k => ?_) (step_run ..)).after (.cons (.option rfl) .nil)
    rw [Nat.add_right_comm n', Nat.add_assoc n']
    exact hR k

end Cursor

/-- **Two spellings are read as the same.** -/
theorem Spelling.stream {R : Nat → Nat → Prop} {t : Table ι} {span span' : List String}
    (h : Spelling t span span') {n n' : Nat} {rest : List String}
    (hR : ∀ k, R (n + span.length + k) (n' + span'.length + k)) :
    Stream.Same R ((⟨n, span ++ rest, none⟩ : Cursor).stream t)
      ((⟨n', span' ++ rest, none⟩ : Cursor).stream t) := by
  have hafter := Cursor.same_stream_drop (t := t) hR rest
  cases h with
  | long value he hvalue hname hne =>
    rw [Cursor.stream_of_piece (.longInline he hvalue hname),
      Cursor.stream_of_piece (.longSeparate value he hvalue hname hne)]
    exact hafter.after (.cons (.option rfl) .nil)
  | @short c value e he hvalue hc hne =>
    have hinline : "-" ++ String.singleton c ++ value =
        String.ofList ('-' :: c :: value.toList) := by
      rw [← String.toList_inj]
      simp
    have hseparate : "-" ++ String.singleton c = String.ofList ['-', c] := by
      rw [← String.toList_inj]
      simp
    rw [hinline, hseparate]
    rw [Cursor.stream_of_piece (.run hc (.inline he hvalue (by simpa using hne))),
      Cursor.stream_of_piece (.run hc (.separate value he hvalue))]
    refine hafter.after (.cons (.option ?_) .nil)
    simp [Match.occurrence, Match.short, Value.whole]
  | @cluster cs args h =>
    obtain ⟨head, tail, rfl, hhead⟩ := h.exists_cons
    exact Cursor.same_stream_cluster h rfl hR (Cursor.step_short hhead n tail rest)

/-! ## Lines -/

/-- Two lines that differ in the spelling of some options, which stand behind pieces that come to
events of which `P` holds. -/
inductive Respelling (t : Table ι) (start : Nat) (P : List (Event ι) → Prop) :
    List String → List String → Prop where
  | mk (front before after : List String) {span span' : List String} {events : List (Event ι)}
      (hfront : front.length = start) (hbefore : Pieces t start events before) (hP : P events)
      (h : Spelling t span span') :
      Respelling t start P (front ++ (before ++ (span ++ after)))
        (front ++ (before ++ (span' ++ after)))

/-- Whether one line is the other with any number of options spelled in another way. -/
def Respelled (t : Table ι) (start : Nat) (P : List (Event ι) → Prop) :
    List String → List String → Prop :=
  Relation.EqvGen (Respelling t start P)

theorem Respelling.stream {R : Nat → Nat → Prop} {t : Table ι} {start : Nat}
    {P : List (Event ι) → Prop} {args args' : List String} (h : Respelling t start P args args')
    (hbefore : ∀ events, P events → ∀ event ∈ events, Event.Same R event event)
    (hafter : ∀ i i', args.drop i = args'.drop i' → R i i') :
    Stream.Same R (t.read args start) (t.read args' start) := by
  obtain @⟨front, before, after, span, span', events, rfl, hpieces, hP, h⟩ := h
  -- Behind the options that are respelled both lines are the same.
  have hdrop (span : List String) (k : Nat) :
      (front ++ (before ++ (span ++ after))).drop
        (front.length + before.length + span.length + k) = after.drop k := by
    have hline : front ++ (before ++ (span ++ after)) = (front ++ before ++ span) ++ after := by
      simp
    have hlength : front.length + before.length + span.length =
        (front ++ before ++ span).length := by
      simp [Nat.add_assoc]
    rw [hline, hlength, List.drop_length_add_append]
  unfold Table.read Cursor.ofArgs
  rw [List.drop_left, List.drop_left, hpieces.stream, hpieces.stream]
  refine (h.stream fun k => hafter _ _ ?_).after ?_
  · rw [hdrop, hdrop]
  · exact List.forall₂_same.2 (hbefore events hP)

/-- What is delivered, without its place. -/
inductive Saying (ι : Type) where
  /-- An option of the table. -/
  | option (o : Occurrence ι)
  /-- An argument that is none. -/
  | unknown (token : String)
  deriving DecidableEq, Repr

/-- An event without its place. -/
def Event.said : Event ι → Saying ι
  | .option m => .option m.occurrence
  | .unknown _ token => .unknown token

theorem Event.Same.said {R : Nat → Nat → Prop} {event event' : Event ι} (h : event.Same R event') :
    event.said = event'.said := by
  cases h with
  | option h => exact congrArg Saying.option h
  | unknown => rfl

/-- **A line is read as the same however its options are spelled**, up to places. -/
theorem Table.said_of_respelled {t : Table ι} {start : Nat} {args args' : List String}
    (h : Respelled t start (fun _ => True) args args') :
    (t.read args start).events.map Event.said = (t.read args' start).events.map Event.said ∧
      (t.read args start).missing = (t.read args' start).missing := by
  induction h with
  | rel args args' h =>
    obtain ⟨hevents, hmissing⟩ := h.stream (R := fun _ _ => True)
      (fun _ _ event _ => event.same_refl fun _ => trivial) fun _ _ _ => trivial
    refine ⟨?_, hmissing⟩
    generalize (t.read args start).events = events at hevents
    generalize (t.read args' start).events = events' at hevents
    induction hevents with
    | nil => rfl
    | cons h _ ih => rw [List.map_cons, List.map_cons, h.said, ih]
  | refl args => exact ⟨rfl, rfl⟩
  | symm args args' _ ih => exact ⟨ih.1.symm, ih.2.symm⟩
  | trans args args' args'' _ _ ih ih' => exact ⟨ih.1.trans ih'.1, ih.2.trans ih'.2⟩

end VmControl.Options
